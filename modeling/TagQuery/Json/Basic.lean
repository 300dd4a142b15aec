namespace TagQuery

/-- A JSON value. The fields of an object stay in their order, and a field may stand twice. -/
inductive Json
  | null
  | bool (value : Bool)
  | integer (value : Int)
  | float (value : Float)
  | string (text : String)
  | array (items : List Json)
  | object (fields : List (String × Json))
deriving Repr

namespace Json

def maxDepth : Nat := 127

end Json

end TagQuery
