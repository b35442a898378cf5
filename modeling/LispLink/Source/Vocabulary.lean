/-
  LispLink.Source.Vocabulary
  ────────────────────────────────
  **THE WORDS THAT LISP ITSELF DEFINES.**

  A word without a colon is looked up here by its upper case; what is not
  found is a plain identifier.
-/
import LispLink.Source.Kind
import LispLink.Text.Upper

namespace LispLink.Source

namespace Vocabulary

/-- Control flow. -/
def control : List String :=
  ["AND", "BLOCK", "CASE", "CATCH", "CCASE", "COND", "CTYPECASE", "DO", "DO*",
   "DO-ALL-SYMBOLS", "DO-EXTERNAL-SYMBOLS", "DO-SYMBOLS", "DOLIST", "DOTIMES", "ECASE",
   "ETYPECASE", "GO", "HANDLER-BIND", "HANDLER-CASE", "IF", "IGNORE-ERRORS", "OR",
   "PROG1", "PROG2", "PROGN", "RESTART-BIND", "RESTART-CASE", "RETURN", "RETURN-FROM",
   "TAGBODY", "THROW", "TYPECASE", "UNLESS", "UNWIND-PROTECT", "WHEN"]

/-- Standard macros that are neither control flow nor set apart below. -/
def standardMacro : List String :=
  ["ASSERT", "CHECK-TYPE", "DECF", "DEFINE-COMPILER-MACRO", "DEFINE-MODIFY-MACRO",
   "DEFINE-SETF-EXPANDER", "DEFINE-SYMBOL-MACRO", "DEFGENERIC", "DEFSETF", "DEFSTRUCT",
   "DEFTYPE", "DESTRUCTURING-BIND", "INCF", "MULTIPLE-VALUE-BIND", "MULTIPLE-VALUE-LIST",
   "MULTIPLE-VALUE-SETQ", "POP", "PUSH", "PUSHNEW", "SETF", "WITH-ACCESSORS",
   "WITH-INPUT-FROM-STRING", "WITH-OPEN-FILE", "WITH-OPEN-STREAM",
   "WITH-OUTPUT-TO-STRING", "WITH-SLOTS", "WITH-STANDARD-IO-SYNTAX"]

/-- Special operators. -/
def specialOperator : List String :=
  ["DECLARE", "EVAL-WHEN", "FLET", "FUNCTION", "LABELS", "LAMBDA", "LOAD-TIME-VALUE",
   "LOCALLY", "MACROLET", "MULTIPLE-VALUE-CALL", "MULTIPLE-VALUE-PROG1", "PROGV",
   "QUOTE", "SETQ", "SYMBOL-MACROLET", "THE"]

/-- Definers of global variables. -/
def variableDefiner : List String :=
  ["DEFCONSTANT", "DEFPARAMETER", "DEFVAR"]

/-- Markers of a parameter list. -/
def lambdaListMarker : List String :=
  ["&ALLOW-OTHER-KEYS", "&AUX", "&BODY", "&ENVIRONMENT", "&KEY", "&OPTIONAL", "&REST",
   "&WHOLE"]

/-- Every word with its kind. -/
def entries : List (String × Kind) :=
  control.map (·, .control)
    ++ standardMacro.map (·, .standardMacro)
    ++ specialOperator.map (·, .specialOperator)
    ++ variableDefiner.map (·, .variableDefiner)
    ++ lambdaListMarker.map (·, .lambdaListMarker)
    ++ [("DEFUN", .functionDefiner), ("DEFPACKAGE", .packageDefiner), ("IN-PACKAGE", .inPackage),
        ("DEFINE-CONDITION", .conditionDefiner), ("DEFCLASS", .classDefiner),
        ("DEFMACRO", .macroDefiner), ("DEFMETHOD", .methodDefiner), ("LOOP", .loop),
        ("LET", .localBinding), ("LET*", .localBinding)]

end Vocabulary

/-- The kind of a word: qualified if it has a colon, else as the vocabulary
says, else a plain identifier. -/
def Kind.ofWord (word : String) : Kind :=
  if ':' ∈ word.toList then .symbol
  else (Vocabulary.entries.lookup (Text.upper word)).getD .identifier

end LispLink.Source
