/-
  LispLink.Value.ToJson
  ────────────────────────────────
  **VALUES AS JSON.**

  `nil` is null and `t` true; strings and symbols are strings, and keywords
  strings with their colon; lists are arrays and records objects.
-/
import LispLink.Json.Basic
import LispLink.Value.Basic

namespace LispLink.Value

mutual

/-- The JSON of a value. -/
def toJson : Value → Json
  | nil => .null
  | t => .bool true
  | int n => .int n.toInt
  | float x => .float x
  | str s => .str s
  | symbol s => .str s
  | keyword k => .str (":" ++ k)
  | list vs => .array (itemsToJson vs)
  | record fs => .object (fieldsToJson fs)

/-- The JSON of several values. -/
def itemsToJson : List Value → List Json
  | [] => []
  | v :: vs => toJson v :: itemsToJson vs

/-- The JSON of several fields. -/
def fieldsToJson : List (String × Value) → List (String × Json)
  | [] => []
  | (k, v) :: fs => (k, toJson v) :: fieldsToJson fs

end

end LispLink.Value
