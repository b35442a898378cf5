/-
  LispLink.Source.Lexeme
  ────────────────────────────────
  **WHERE A TOKEN ENDS, ONE CHARACTER AT A TIME.**

  Every token class is told apart by a small automaton.  `Lexeme.start c` is
  the state after the first character of a token, `Lexeme.step s c` the state
  after one more, or `none` when `c` no longer belongs to it:

      blank run      ␣ ␣ …                          up to the first other character
      fenced text    "…"  |…|                       up to its unescaped fence
      comment        ; …                            up to the end of the line
      prefixes       '  the backquote  ,  ,@
      block comment  #| … |#                        nested, pairs not overlapping
      character      #\c  #\Name
      sharp datum    #…  #…( … )                    to the paren that closes it
      word           anything else                  up to a delimiter

  No token is empty and no character is looked at twice: whether a character
  extends a token depends on the token's own characters alone.  What the text
  of a token means is decided when the token is complete (`Lexeme.kind`).
-/
import LispLink.Source.Vocabulary
import LispLink.Text.Blank
import LispLink.Text.Letter

namespace LispLink.Source

/-- Characters that end a word. -/
def isDelimiter (c : Char) : Bool :=
  Text.isBlank c || c == '(' || c == ')' || c == '"'

/-- The marks that enclose a string or a barred symbol. -/
inductive Fence where
  | string
  | bar
  deriving DecidableEq, Repr

/-- The character that opens and closes the fence. -/
def Fence.mark : Fence → Char
  | string => '"'
  | bar => '|'

/-- How a sharp datum is read on: in its plain text, just behind a backslash
there, in a string, or just behind a backslash in a string. -/
inductive DatumMode where
  | plain
  | escaped
  | string
  | stringEscaped
  deriving DecidableEq, Repr

/-- The state of a token that is being read. -/
inductive Lexeme where
  /-- A run of white space. -/
  | blank
  | openParen
  | closeParen
  /-- Inside a fence; `escaped` just behind a backslash. -/
  | fenced (fence : Fence) (escaped : Bool)
  /-- Behind the closing fence. -/
  | fenceClosed (fence : Fence)
  | comment
  | quote
  /-- The backquote character. -/
  | backquote
  | comma
  /-- A comma with its at-sign. -/
  | splice
  /-- The sharp sign alone. -/
  | sharp
  /-- In a block comment inside `depth` inner ones; `half` is a sharp sign or
  bar that may be the first half of a pair. -/
  | block (depth : Nat) (half : Option Char)
  | blockClosed
  /-- Behind a sharp sign and a backslash. -/
  | character
  /-- In the name of a character. -/
  | characterName
  /-- Behind a sharp sign and at least one character of a dispatch run. -/
  | sharpRun
  /-- In the list of a sharp datum, with `depth + 1` parens open. -/
  | datum (depth : Nat) (mode : DatumMode)
  /-- A sharp token that no character extends. -/
  | sharpClosed
  | word
  deriving DecidableEq, Repr

namespace Lexeme

/-- The state after the first character of a token. -/
def start (c : Char) : Lexeme :=
  if Text.isBlank c then blank
  else if c == '(' then openParen
  else if c == ')' then closeParen
  else if c == '"' then fenced .string false
  else if c == '|' then fenced .bar false
  else if c == ';' then comment
  else if c == '\'' then quote
  else if c.toNat == 0x60 then backquote
  else if c == ',' then comma
  else if c == '#' then sharp
  else word

/-- In a dispatch run: any character but a delimiter goes on, and an open paren
begins the list of a datum. -/
def stepRun (c : Char) : Option Lexeme :=
  if c == '(' then some (datum 0 .plain)
  else if isDelimiter c then none
  else some sharpRun

/-- In a block comment: a sharp sign and a bar open an inner one, a bar and a
sharp sign close the innermost. -/
def stepBlock (depth : Nat) (half : Option Char) (c : Char) : Lexeme :=
  if half = some '#' ∧ c = '|' then block (depth + 1) none
  else if half = some '|' ∧ c = '#' then
    match depth with
    | 0 => blockClosed
    | d + 1 => block d none
  else if c = '#' ∨ c = '|' then block depth (some c)
  else block depth none

/-- In the list of a sharp datum, where only parens count that stand neither in
a string nor behind a backslash. -/
def stepDatum (depth : Nat) (mode : DatumMode) (c : Char) : Lexeme :=
  match mode with
  | .escaped => datum depth .plain
  | .stringEscaped => datum depth .string
  | .string =>
    if c == '\\' then datum depth .stringEscaped
    else if c == '"' then datum depth .plain
    else datum depth .string
  | .plain =>
    if c == '(' then datum (depth + 1) .plain
    else if c == ')' then
      match depth with
      | 0 => sharpClosed
      | d + 1 => datum d .plain
    else if c == '"' then datum depth .string
    else if c == '\\' then datum depth .escaped
    else datum depth .plain

/-- The state after the character `c`, or `none` if `c` begins the next
token. -/
def step (s : Lexeme) (c : Char) : Option Lexeme :=
  match s with
  | blank => if Text.isBlank c then some blank else none
  | fenced f true => some (fenced f false)
  | fenced f false =>
    if c == '\\' then some (fenced f true)
    else if c == f.mark then some (fenceClosed f)
    else some (fenced f false)
  | comment => if c == '\n' then none else some comment
  | comma => if c == '@' then some splice else none
  | sharp =>
    if c == '|' then some (block 0 none)
    else if c == '\\' then some character
    else stepRun c
  | block depth half => some (stepBlock depth half c)
  | character => if Text.isAlphabetic c then some characterName else some sharpClosed
  | characterName =>
    if Text.isAlphanumeric c || c == '-' || c == '_' then some characterName else none
  | sharpRun => stepRun c
  | datum depth mode => some (stepDatum depth mode c)
  | word => if isDelimiter c then none else some word
  | openParen | closeParen | fenceClosed _ | quote | backquote | splice | blockClosed
  | sharpClosed => none

/-- The kind of a token that ends in state `s` and has the given text. -/
def kind (s : Lexeme) (text : String) : Kind :=
  match s with
  | blank => .whitespace
  | openParen => .openParen
  | closeParen => .closeParen
  | fenced .string _ => .unclosedString
  | fenced .bar _ => .unclosedBar
  | fenceClosed .string => .string
  | fenceClosed .bar => .identifier
  | comment => .comment
  | quote => .quote
  | backquote => .backquote
  | comma | splice => .comma
  | block _ _ => .unclosedBlockComment
  | blockClosed => .blockComment
  | sharp | character | characterName | sharpRun | datum _ _ | sharpClosed => .sharp
  | word => .ofWord text

end Lexeme

end LispLink.Source
