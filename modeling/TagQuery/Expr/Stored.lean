import TagQuery.Expr.Basic
import TagQuery.Expr.TagContext
import TagQuery.Json.Fields
import TagQuery.Json.Reader
import TagQuery.Json.Writer

namespace TagQuery

namespace TagPath

def toJson (path : TagPath) : Json := .object [("segments", .array (path.segments.map .string))]

def ofJson? (json : Json) : Option TagPath := do
  let segments ← Json.single? "segments" (← json.asObject?)
  return ⟨← (← segments.asArray?).mapM Json.asString?⟩

end TagPath

namespace Expr

def kind : Expr → String
  | .predicate _ => "predicate"
  | .comparison _ _ _ => "comparison"
  | .and _ _ => "and"
  | .or _ _ => "or"
  | .not _ => "not"
  | .group _ => "group"

def toJson : Expr → Json
  | .predicate path => .object [("type", .string "predicate"), ("path", path.toJson)]
  | .comparison key op operand =>
    .object
      [("type", .string "comparison"), ("key", key.toJson), ("op", .string op.word),
        ("operand", .float operand)]
  | .and left right =>
    .object [("type", .string "and"), ("left", left.toJson), ("right", right.toJson)]
  | .or left right =>
    .object [("type", .string "or"), ("left", left.toJson), ("right", right.toJson)]
  | .not inner => .object [("type", .string "not"), ("inner", inner.toJson)]
  | .group inner => .object [("type", .string "group"), ("inner", inner.toJson)]

def kinds : List String := ["predicate", "comparison", "and", "or", "not", "group"]

/-- The kind of a node inside another one, which may also be given by its place among the kinds. -/
def innerKind? : Json → Option String
  | .integer place => if 0 ≤ place then kinds[place.toNat]? else none
  | json => json.asString?

def ofFields? (kind? : Json → Option String) (fields : List (String × Json))
    (children : List (String × Option Expr)) : Option Expr := do
  let child (name : String) : Option Expr := (Json.single? name children).join
  match ← kind? (← Json.single? "type" fields) with
  | "predicate" => return .predicate (← TagPath.ofJson? (← Json.single? "path" fields))
  | "comparison" =>
    let key ← TagPath.ofJson? (← Json.single? "key" fields)
    let op ← Comparison.ofWord? (← (← Json.single? "op" fields).asChoice?)
    return .comparison key op (← (← Json.single? "operand" fields).asFloat?)
  | "and" => return .and (← child "left") (← child "right")
  | "or" => return .or (← child "left") (← child "right")
  | "not" => return .not (← child "inner")
  | "group" => return .group (← child "inner")
  | _ => none

mutual

/-- Reads a stored expression. Fields of other names do not matter, and a field that matters stands
    once. -/
def ofKindedJson? (kind? : Json → Option String) : Json → Option Expr
  | .object fields => ofFields? kind? fields (childrenOf fields)
  | _ => none

def childrenOf : List (String × Json) → List (String × Option Expr)
  | [] => []
  | (name, value) :: fields => (name, ofKindedJson? innerKind? value) :: childrenOf fields

end

def ofJson? (json : Json) : Option Expr := ofKindedJson? Json.asString? json

def ofJsonText? (text : String) : Option Expr := do ofJson? (← Json.ofText? text)

end Expr

namespace TagContext

def ofJson? (json : Json) : Option TagContext := do
  return ofList (← Json.fieldsOf? Json.asString? json)

def ofJsonText? (text : String) : Option TagContext := do ofJson? (← Json.ofText? text)

end TagContext

end TagQuery
