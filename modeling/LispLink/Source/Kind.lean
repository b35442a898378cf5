/-
  LispLink.Source.Kind
  ────────────────────────────────
  **KINDS OF TOKENS.**

  The scanner gives every token a lexical kind.  Reading a token list may
  replace some of them by resolved kinds: the names that a form introduces or
  calls, and the parens that have no partner.
-/

namespace LispLink.Source

/-- What a token is. -/
inductive Kind where
  | openParen
  | closeParen
  | whitespace
  | identifier
  /-- A word with a colon in it: a keyword or a package-qualified name. -/
  | symbol
  | string
  | comment
  | blockComment
  | quote
  | backquote
  | comma
  | sharp
  /-- Control flow: `if`, `cond`, `dolist`, … -/
  | control
  /-- Other standard macros: `setf`, `push`, … -/
  | standardMacro
  | specialOperator
  /-- `defvar`, `defparameter`, `defconstant`. -/
  | variableDefiner
  /-- `&optional`, `&rest`, … -/
  | lambdaListMarker
  | functionDefiner
  | packageDefiner
  | inPackage
  | conditionDefiner
  | classDefiner
  | macroDefiner
  | methodDefiner
  | loop
  /-- `let` and `let*`. -/
  | localBinding
  | functionName
  | parameter
  | localName
  | unclosedParen
  | strayParen
  | unclosedString
  | unclosedBar
  | unclosedBlockComment
  deriving DecidableEq, Repr

namespace Kind

/-- White space and comments, which no form contains. -/
def isTrivia : Kind → Bool
  | whitespace | comment | blockComment | unclosedBlockComment => true
  | _ => false

/-- A paren without a partner, or text whose closing mark is missing. -/
def isMismatched : Kind → Bool
  | unclosedParen | strayParen | unclosedString | unclosedBar | unclosedBlockComment => true
  | _ => false

/-- The operators of defining forms that reading pays attention to. -/
def isDefiner : Kind → Bool
  | functionDefiner | packageDefiner | inPackage | conditionDefiner | classDefiner
  | macroDefiner | methodDefiner => true
  | _ => false

/-- The name under which an editor knows the kind. -/
def name : Kind → String
  | openParen => "open-paren"
  | closeParen => "close-paren"
  | whitespace => "whitespace"
  | identifier => "identifier"
  | symbol => "symbol"
  | string => "string"
  | comment => "comment"
  | blockComment => "block-comment"
  | quote => "quote"
  | backquote => "back-quote"
  | comma => "comma"
  | sharp => "sharp-sequence"
  | control => "control-keyword"
  | standardMacro => "macro-keyword"
  | specialOperator => "special-operator"
  | variableDefiner => "variable-keyword"
  | lambdaListMarker => "lambda-list-keyword"
  | functionDefiner => "defun"
  | packageDefiner => "def-package"
  | inPackage => "in-package"
  | conditionDefiner => "define-condition"
  | classDefiner => "def-class"
  | macroDefiner => "def-macro"
  | methodDefiner => "def-method"
  | loop => "loop"
  | localBinding => "local-binding"
  | functionName => "function-name"
  | parameter => "parameter"
  | localName => "local-name"
  | unclosedParen => "mismatched-open-paren"
  | strayParen => "mismatched-close-paren"
  | unclosedString => "mismatched-string"
  | unclosedBar => "mismatched-barred-symbol"
  | unclosedBlockComment => "mismatched-block-comment"

end Kind

end LispLink.Source
