/-
  LispLink.Value.Basic
  ────────────────────────────────
  **LISP DATA.**

  Everything that travels between an editor and a Lisp image is one of these
  values.  Requests are built from them; payloads that arrive are read into
  them.  A record is an ordered plist: it is written as alternating keys and
  values and reads back as a list.
-/
import LispLink.Number.FloatText
import LispLink.Text.AsciiCase

namespace LispLink

open Number

/-- A Lisp value. -/
inductive Value where
  | nil
  | t
  | int (n : Int64)
  | float (x : Double)
  | str (s : String)
  /-- A symbol that is no keyword, by its text. -/
  | symbol (name : String)
  /-- A keyword, without its colon. -/
  | keyword (name : String)
  | list (items : List Value)
  /-- Keys, without colons, and their values. -/
  | record (fields : List (String × Value))
  deriving Repr

namespace Value

/-! ## §1. Making values. -/

/-- The list of an operator and its arguments. -/
def call (operator : String) (args : List Value) : Value :=
  list (symbol operator :: args)

/-- The generalised boolean. -/
def ofBool (b : Bool) : Value := if b then t else nil

/-! ## §2. Looking at values. -/

/-- Only `nil` is false. -/
def isNil : Value → Bool
  | nil => true
  | _ => false

/-- Everything but `nil` is true. -/
def isTrue (v : Value) : Bool := !v.isNil

/-- The text of a string or of a symbol. -/
def text? : Value → Option String
  | str s | symbol s => some s
  | _ => none

/-- The integer. -/
def int? : Value → Option Int64
  | int n => some n
  | _ => none

/-- The number as a double. -/
def float? : Value → Option Double
  | float x => some x
  | int n => some (Double.ofInt n.toInt)
  | _ => none

/-- The elements of a list; `nil` is the empty one. -/
def list? : Value → Option (List Value)
  | list items => some items
  | nil => some []
  | _ => none

/-- The elements of a list, and none for anything else. -/
def elements (v : Value) : List Value := v.list?.getD []

/-- Whether the value is the keyword of that name, in any ASCII case. -/
def isKeyword (v : Value) (name : String) : Bool :=
  match v with
  | keyword k => Text.sameLetters k name
  | _ => false

/-! ## §3. Looking up a key. -/

/-- The value behind the first key of that name, where keys and values take
turns.  A key at the very end has no value. -/
def lookupItems (name : String) : List Value → Option Value
  | [] => none
  | [_] => none
  | k :: v :: rest => if k.isKeyword name then some v else lookupItems name rest

/-- The value of the first field of that name. -/
def lookupFields (name : String) (fields : List (String × Value)) : Option Value :=
  (fields.find? fun f => Text.sameLetters f.1 name).map Prod.snd

/-- The value of a key in a list of alternating keys and values or in a
record. -/
def get? (v : Value) (name : String) : Option Value :=
  match v with
  | list items => lookupItems name items
  | record fields => lookupFields name fields
  | _ => none

/-- The text of a key's value. -/
def textOf? (v : Value) (name : String) : Option String :=
  (v.get? name).bind text?

end Value

end LispLink
