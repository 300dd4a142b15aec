namespace TagQuery

/-- A value of a configuration file. Dates and times are told apart from other values only. -/
inductive Toml
  | string (text : String)
  | integer (value : Int)
  | float
  | bool (value : Bool)
  | moment
  | array (items : List Toml)
  | table (fields : List (String × Toml))
deriving Repr

namespace Toml

/-- How a table came to be: on the way to another table, by a header of its own or by a key with points. -/
inductive Origin
  | implied
  | header
  | dotted
deriving DecidableEq, Repr

inductive Node
  | value (value : Toml)
  | table (origin : Origin) (fields : List (String × Node))
  | tables (earlier : List Node) (origin : Origin) (fields : List (String × Node))
deriving Repr

abbrev Fields := List (String × Node)

def find? {α : Type} (name : String) (fields : List (String × α)) : Option α :=
  (fields.find? fun field => field.1 = name).map (·.2)

def replace {α : Type} (name : String) (value : α) : List (String × α) → List (String × α)
  | [] => [(name, value)]
  | (other, current) :: rest =>
    if other = name then (name, value) :: rest else (other, current) :: replace name value rest

/-- Changes the table at the end of a path, as its origin allows. Tables on the way are made as
    needed; a key with points may not pass through a table with a header of its own, other than the
    last table of an array. -/
def descend (dotted : Bool) (change : Origin → Fields → Option Fields) :
    List String → Origin → Fields → Option Fields
  | [], origin, fields => change origin fields
  | name :: path, _, fields =>
    match find? name fields with
    | none => do
      let origin := if dotted then .dotted else .implied
      return replace name (.table origin (← descend dotted change path origin [])) fields
    | some (.table origin inner) =>
      if dotted && origin = .header then none
      else do
        return replace name (.table origin (← descend dotted change path origin inner)) fields
    | some (.tables earlier origin inner) => do
      return replace name (.tables earlier origin (← descend dotted change path origin inner)) fields
    | some (.value _) => none

/-- Gives a value to a key that has none. A key with points adds only to a table that such keys have
    made. -/
def define (path : List String) (name : String) (value : Node) (fields : Fields) : Option Fields :=
  descend true
    (fun origin fields =>
      if (find? name fields).isSome || (!path.isEmpty && origin ≠ .dotted) then none
      else some (replace name value fields))
    path .header fields

def openTable (path : List String) (name : String) (fields : Fields) : Option Fields :=
  descend false
    (fun _ fields =>
      match find? name fields with
      | none => some (replace name (.table .header []) fields)
      | some (.table .implied inner) => some (replace name (.table .header inner) fields)
      | some _ => none)
    path .header fields

def openElement (path : List String) (name : String) (fields : Fields) : Option Fields :=
  descend false
    (fun _ fields =>
      match find? name fields with
      | none => some (replace name (.tables [] .header []) fields)
      | some (.tables earlier origin inner) =>
        some (replace name (.tables (earlier ++ [.table origin inner]) .header []) fields)
      | some _ => none)
    path .header fields

def inSection (path : List String) (change : Fields → Option Fields) (fields : Fields) :
    Option Fields :=
  descend false (fun _ => change) path .header fields

mutual

def Node.toToml : Node → Toml
  | .value value => value
  | .table _ fields => .table (fieldsToToml fields)
  | .tables earlier _ fields => .array (nodesToToml earlier ++ [.table (fieldsToToml fields)])

def fieldsToToml : List (String × Node) → List (String × Toml)
  | [] => []
  | (name, node) :: fields => (name, node.toToml) :: fieldsToToml fields

def nodesToToml : List Node → List Toml
  | [] => []
  | node :: nodes => node.toToml :: nodesToToml nodes

end

end Toml

end TagQuery
