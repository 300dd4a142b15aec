import TagQuery.Json.Basic
import TagQuery.Number.Decimal

namespace TagQuery.Json

def single? {α : Type} (name : String) (fields : List (String × α)) : Option α :=
  match fields.filter fun field => field.1 = name with
  | [field] => some field.2
  | _ => none

def asString? : Json → Option String
  | .string text => some text
  | _ => none

/-- The name of a choice: a string, or the one field of an object, which then holds nothing. -/
def asChoice? : Json → Option String
  | .string name => some name
  | .object [(name, .null)] => some name
  | .object [(name, .object [])] => some name
  | _ => none

def asFloat? : Json → Option Float
  | .integer value => some (Number.Decimal.toFloat (value < 0) ⟨value.natAbs, 0⟩)
  | .float value => some value
  | _ => none

def asArray? : Json → Option (List Json)
  | .array items => some items
  | _ => none

def asObject? : Json → Option (List (String × Json))
  | .object fields => some fields
  | _ => none

def fieldsOf? {α : Type} (decode : Json → Option α) (json : Json) : Option (List (String × α)) := do
  (← json.asObject?).mapM fun field => return (field.1, ← decode field.2)

end TagQuery.Json
