import Std.Data.TreeMap
import TagQuery.Expr.Stored
import TagQuery.Group.Basic

namespace TagQuery

inductive Lookup
  | known (context : TagContext)
  | unknown
  | crash

structure TagSource where
  lookup : String → Lookup
  entities : List String

structure EntityStore where
  contexts : Std.TreeMap String TagContext := {}

namespace EntityStore

def get? (store : EntityStore) (entity : String) : Option TagContext := store.contexts[entity]?

def insert (store : EntityStore) (entity : String) (context : TagContext) : EntityStore :=
  ⟨store.contexts.insert entity context⟩

def erase (store : EntityStore) (entity : String) : EntityStore := ⟨store.contexts.erase entity⟩

def ofList (entries : List (String × TagContext)) : EntityStore :=
  entries.foldl (fun store entry => store.insert entry.1 entry.2) {}

def entities (store : EntityStore) : List String := store.contexts.keys

def size (store : EntityStore) : Nat := store.contexts.size

def isEmpty (store : EntityStore) : Bool := store.contexts.isEmpty

def ofJson? (json : Json) : Option EntityStore := do
  return ofList (← Json.fieldsOf? TagContext.ofJson? json)

def ofJsonText? (text : String) : Option EntityStore := do ofJson? (← Json.ofText? text)

def source (store : EntityStore) : TagSource where
  lookup entity :=
    match store.get? entity with
    | some context => .known context
    | none => .unknown
  entities := store.entities

end EntityStore

namespace DynamicGroup

/-- Decides about an entity with tags; an entity that is not known has none. A source that crashes
    decides nothing. -/
def decideFor? (group : DynamicGroup) (source : TagSource) (entity : String)
    (policy : NonNumericPolicy) : Option Decision :=
  match source.lookup entity with
  | .known context => some (group.decide context policy)
  | .unknown => some (group.decide .empty policy)
  | .crash => none

end DynamicGroup

end TagQuery
