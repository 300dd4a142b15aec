import TagQuery.Filter.Trace

namespace TagQuery

inductive Decision
  | member
  | notMember
  | error (error : EvalError)
deriving DecidableEq, Repr

namespace Decision

def ofResult : Except EvalError Bool → Decision
  | .ok true => .member
  | .ok false => .notMember
  | .error failure => .error failure

def isMember : Decision → Bool
  | .member => true
  | _ => false

def isError : Decision → Bool
  | .error _ => true
  | _ => false

end Decision

structure DynamicGroup where
  name : String
  filter : Filter
deriving DecidableEq, Repr

namespace DynamicGroup

def compileLogged (name : String) (limit : Nat) (filter : String) :
    Logged (Except FilterError DynamicGroup) := do
  return (← Filter.compileLogged limit filter).map (⟨name, ·⟩)

def decide (group : DynamicGroup) (context : TagContext) (policy : NonNumericPolicy) : Decision :=
  .ofResult (group.filter.decide context policy)

end DynamicGroup

end TagQuery
