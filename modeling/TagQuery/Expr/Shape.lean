import Std.Data.TreeSet
import TagQuery.Expr.Basic

namespace TagQuery

namespace Expr

def height : Expr → Nat
  | .predicate _ | .comparison _ _ _ => 1
  | .and left right | .or left right => 1 + max left.height right.height
  | .not inner | .group inner => 1 + inner.height

/-- The most groups and negations that stand inside each other. -/
def nesting : Expr → Nat
  | .predicate _ | .comparison _ _ _ => 0
  | .and left right | .or left right => max left.nesting right.nesting
  | .not inner | .group inner => 1 + inner.nesting

def nodeCount : Expr → Nat
  | .predicate _ | .comparison _ _ _ => 1
  | .and left right | .or left right => 1 + left.nodeCount + right.nodeCount
  | .not inner | .group inner => 1 + inner.nodeCount

def lookups : Expr → List String
  | .predicate path => [path.keyAndValue.1]
  | .comparison key _ _ => [key.text]
  | .and left right | .or left right => left.lookups ++ right.lookups
  | .not inner | .group inner => inner.lookups

/-- The keys that an expression looks up, in order and each once. Strings are ordered by code
    point, which is the order of their bytes. -/
def referencedKeys (expr : Expr) : List String := (Std.TreeSet.ofList expr.lookups).toList

end Expr

structure NodeCounts where
  predicates : Nat := 0
  comparisons : Nat := 0
  ands : Nat := 0
  ors : Nat := 0
  nots : Nat := 0
  groups : Nat := 0
deriving DecidableEq, Repr

namespace NodeCounts

def add (first second : NodeCounts) : NodeCounts where
  predicates := first.predicates + second.predicates
  comparisons := first.comparisons + second.comparisons
  ands := first.ands + second.ands
  ors := first.ors + second.ors
  nots := first.nots + second.nots
  groups := first.groups + second.groups

instance : Add NodeCounts := ⟨add⟩

def ofExpr : Expr → NodeCounts
  | .predicate _ => { predicates := 1 }
  | .comparison _ _ _ => { comparisons := 1 }
  | .and left right => { ands := 1 } + ofExpr left + ofExpr right
  | .or left right => { ors := 1 } + ofExpr left + ofExpr right
  | .not inner => { nots := 1 } + ofExpr inner
  | .group inner => { groups := 1 } + ofExpr inner

def leaves (counts : NodeCounts) : Nat := counts.predicates + counts.comparisons

def combinators (counts : NodeCounts) : Nat :=
  counts.ands + counts.ors + counts.nots + counts.groups

end NodeCounts

structure Shape where
  counts : NodeCounts
  nesting : Nat
  height : Nat
  nodes : Nat
  keys : List String
deriving DecidableEq, Repr

def Shape.ofExpr (expr : Expr) : Shape where
  counts := .ofExpr expr
  nesting := expr.nesting
  height := expr.height
  nodes := expr.nodeCount
  keys := expr.referencedKeys

end TagQuery
