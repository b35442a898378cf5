/-
  LispLink.Session.Command
  ────────────────────────────────
  **THE OPERATIONS OF A LISP IMAGE.**

  A command is the form to evaluate, the thread to do it in, and how to read
  the outcome.  An answer of a shape that the command does not expect is a
  breach of the protocol.
-/
import LispLink.Reply.Compilation
import LispLink.Session.Basic

namespace LispLink.Session

open Reply Wire

/-- An operation of the image whose answer is read as an `α`. -/
structure Command (α : Type) where
  form : Value
  thread : Thread
  read : Outcome → Except Error α

namespace Command

/-! ## §1. Reading answers. -/

/-- The answer to `operation` has an unexpected shape. -/
def unexpected (operation : String) (answer : Value) : Error :=
  .protocol ("Unexpected reply to " ++ operation ++ ": " ++ answer.encode)

/-- An answer as text: a string's contents, and anything else as Lisp text. -/
def answerText : Value → String
  | .str s => s
  | v => v.encode

/-- Read an answer that may have any shape. -/
def total (f : Value → α) (outcome : Outcome) : Except Error α := outcome.map f

/-- Read an answer that must have a certain shape. -/
def expecting (operation : String) (f : Value → Option α) (outcome : Outcome) : Except Error α :=
  outcome.bind fun v =>
    match f v with
    | some a => .ok a
    | none => .error (unexpected operation v)

/-- Leaving the debugger unwinds the stack, so that an abort is the expected
answer as well. -/
def orAborted : Outcome → Except Error Unit
  | .ok _ | .error (.aborted _) => .ok ()
  | .error e => .error e

/-! ## §2. Evaluating. -/

/-- Send any form. -/
def send (form : Value) : Command Value := ⟨form, .any, id⟩

/-- Ask the image about itself. -/
def connectionInfo : Command ConnectionInfo :=
  ⟨.call "swank:connection-info" [], .any, expecting "connection-info" ConnectionInfo.ofValue?⟩

/-- Evaluate an expression and print the result. -/
def eval (expression : String) : Command String :=
  ⟨.call "swank:interactive-eval" [.str expression], .any, total answerText⟩

/-- The two texts at the start of a list. -/
def twoTexts? (v : Value) : Option (String × String) :=
  match v.elements with
  | a :: b :: _ => do
    let a ← a.text?
    let b ← b.text?
    pure (a, b)
  | _ => none

/-- Evaluate an expression for its output and its result. -/
def evalAndGrabOutput (expression : String) : Command (String × String) :=
  ⟨.call "swank:eval-and-grab-output" [.str expression], .any,
    expecting "eval-and-grab-output" twoTexts?⟩

/-- Complete a prefix to the names of a package. -/
def completions (package stem : String) : Command Completions :=
  ⟨.call "swank:simple-completions" [.str stem, .str package], .any,
    expecting "simple-completions" Completions.ofValue?⟩

/-- Describe a symbol. -/
def describeSymbol (name : String) : Command String :=
  ⟨.call "swank:describe-symbol" [.str name], .any, total answerText⟩

/-- The parameters of an operator as text, if the image knows it. -/
def operatorArglist (package name : String) : Command (Option String) :=
  ⟨.call "swank:operator-arglist" [.str name, .str package], .any, total Value.text?⟩

/-- The texts in a list. -/
def textItems (v : Value) : List String := v.elements.filterMap Value.text?

/-- The names of all packages. -/
def listAllPackageNames (nicknames : Bool) : Command (List String) :=
  ⟨.call "swank:list-all-package-names" [.ofBool nicknames], .any,
    expecting "list-all-package-names" fun v => v.list?.map (·.filterMap Value.text?)⟩

/-- Load a file. -/
def loadFile (path : String) : Command String :=
  ⟨.call "swank:load-file" [.str path], .any, total answerText⟩

/-- Compile a file, and load it if asked to. -/
def compileFile (path : String) (load : Bool) : Command Compilation :=
  ⟨.call "swank:compile-file-for-emacs" [.str path, .ofBool load], .any,
    expecting "compile-file-for-emacs" Compilation.ofValue?⟩

/-- Load extensions of the image; the answer names what is loaded. -/
def require (modules : List String) : Command (List String) :=
  ⟨.call "swank:swank-require"
      [.list [.symbol "quote", .list (modules.map Value.keyword)]], .any, total textItems⟩

/-! ## §3. The debugger. -/

/-- Leave the debugger by a restart. -/
def invokeRestart (thread level restart : Int64) : Command Unit :=
  ⟨.call "swank:invoke-nth-restart-for-emacs" [.int level, .int restart], .id thread, orAborted⟩

/-- Leave one level of the debugger. -/
def abortDebugger (thread : Int64) : Command Unit :=
  ⟨.call "swank:sldb-abort" [], .id thread, orAborted⟩

/-- Leave the debugger altogether. -/
def throwToToplevel (thread : Int64) : Command Unit :=
  ⟨.call "swank:throw-to-toplevel" [], .id thread, orAborted⟩

/-- The frames of the call stack from `start` to before `stop`. -/
def backtrace (thread start stop : Int64) : Command (List StackFrame) :=
  ⟨.call "swank:backtrace" [.int start, .int stop], .id thread, total StackFrame.listOfValue⟩

/-- The local variables of a frame: the first list in the answer. -/
def frameLocals (thread frame : Int64) : Command (List FrameLocal) :=
  ⟨.call "swank:frame-locals-and-catch-tags" [.int frame], .id thread,
    total fun v => ((v.elements.head?.map Value.elements).getD []).filterMap FrameLocal.ofValue?⟩

end Command

/-! ## §4. Running a command. -/

/-- What the image does at once on a connection: it sends bytes, and may hang up
behind them. -/
structure Burst where
  bytes : List UInt8 := []
  hangsUp : Bool := false
  deriving DecidableEq, Repr

namespace Burst

/-- The image sends a payload in its frame; one that fits no frame cannot be
sent. -/
def payload (p : String) : Burst where
  bytes := ((frame p).toOption.map Text.utf8).getD []

/-- The image hangs up. -/
def hangUp : Burst where
  hangsUp := true

/-- A burst and another behind it, without a pause; who has hung up sends no
more. -/
def append (a b : Burst) : Burst := if a.hangsUp then a else ⟨a.bytes ++ b.bytes, b.hangsUp⟩

instance : Append Burst := ⟨append⟩

/-- Bursts without a pause between them. -/
def join (bs : List Burst) : Burst := bs.foldr append {}

@[simp] theorem join_nil : join [] = {} := rfl

@[simp] theorem join_cons (b : Burst) (bs : List Burst) : join (b :: bs) = b ++ join bs := rfl

@[simp] theorem hangUp_append (b : Burst) : hangUp ++ b = hangUp := rfl

theorem append_assoc (a b c : Burst) : a ++ b ++ c = a ++ (b ++ c) := by
  change append (append a b) c = append a (append b c)
  cases ha : a.hangsUp <;> cases hb : b.hangsUp <;> simp [append, ha, hb]

end Burst

/-- Let the image do something: read it all, and then answer its pings. -/
def observe (s : Session) (b : Burst) : Session :=
  let s := s.deliver b.bytes
  (if b.hangsUp then s.endOfStream else s).answerPings

/-- Run a command in the package of the session: send it, let the image do what
it does in answer to the request of that id, and read the outcome. -/
def call (s : Session) (c : Command α) (answer : UInt64 → Burst) :
    Except Error α × Session :=
  match s.dispatch c.form s.package c.thread with
  | (.error e, s) => (c.read (.error e), s)
  | (.ok h, s) =>
    let s := s.observe (answer h.id)
    (c.read (s.outcome h), s)

end LispLink.Session
