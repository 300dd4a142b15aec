import TagQuery.Expr.Eval
import TagQuery.Expr.Printer
import TagQuery.Expr.Shape
import TagQuery.Expr.Validity

namespace TagQuery

/-- A recursive function on expressions, as what it makes of each node from its results for the operands. -/
structure Walk (α : Type) where
  predicate : TagPath → α
  comparison : TagPath → Comparison → Float → α
  and : α → α → α
  or : α → α → α
  not : α → α
  group : α → α

namespace Walk

section

variable {α : Type} (walk : Walk α)

structure Computes (function : Expr → α) : Prop where
  predicate : ∀ path, function (.predicate path) = walk.predicate path
  comparison : ∀ key op operand, function (.comparison key op operand) = walk.comparison key op operand
  and : ∀ left right, function (.and left right) = walk.and (function left) (function right)
  or : ∀ left right, function (.or left right) = walk.or (function left) (function right)
  not : ∀ inner, function (.not inner) = walk.not (function inner)
  group : ∀ inner, function (.group inner) = walk.group (function inner)

/-- The result with at most so many calls inside each other; nothing when they do not suffice. -/
def within : Nat → Expr → Option α
  | 0, _ => none
  | _ + 1, .predicate path => some (walk.predicate path)
  | _ + 1, .comparison key op operand => some (walk.comparison key op operand)
  | calls + 1, .and left right => do return walk.and (← within calls left) (← within calls right)
  | calls + 1, .or left right => do return walk.or (← within calls left) (← within calls right)
  | calls + 1, .not inner => do return walk.not (← within calls inner)
  | calls + 1, .group inner => do return walk.group (← within calls inner)

variable {walk} {function : Expr → α}

theorem Computes.within_of_height_le (computes : walk.Computes function) {calls : Nat} {expr : Expr}
    (high : expr.height ≤ calls) : walk.within calls expr = some (function expr) := by
  induction expr generalizing calls with
  | predicate path =>
    have bound : 1 ≤ calls := high
    obtain ⟨fewer, rfl⟩ := Nat.exists_eq_add_of_le' bound
    rw [within, computes.predicate]
  | comparison key op operand =>
    have bound : 1 ≤ calls := high
    obtain ⟨fewer, rfl⟩ := Nat.exists_eq_add_of_le' bound
    rw [within, computes.comparison]
  | and left right first second =>
    have bound : 1 + max left.height right.height ≤ calls := high
    obtain ⟨fewer, rfl⟩ := Nat.exists_eq_add_of_le' (Nat.le_of_add_right_le bound)
    rw [within, first (by omega), second (by omega), computes.and]
    rfl
  | or left right first second =>
    have bound : 1 + max left.height right.height ≤ calls := high
    obtain ⟨fewer, rfl⟩ := Nat.exists_eq_add_of_le' (Nat.le_of_add_right_le bound)
    rw [within, first (by omega), second (by omega), computes.or]
    rfl
  | not inner ih =>
    have bound : 1 + inner.height ≤ calls := high
    obtain ⟨fewer, rfl⟩ := Nat.exists_eq_add_of_le' (Nat.le_of_add_right_le bound)
    rw [within, ih (by omega), computes.not]
    rfl
  | group inner ih =>
    have bound : 1 + inner.height ≤ calls := high
    obtain ⟨fewer, rfl⟩ := Nat.exists_eq_add_of_le' (Nat.le_of_add_right_le bound)
    rw [within, ih (by omega), computes.group]
    rfl

theorem within_of_lt_height {calls : Nat} {expr : Expr} (low : calls < expr.height) : walk.within calls expr = none := by
  induction calls generalizing expr with
  | zero => rfl
  | succ fewer ih =>
    cases expr with
    | predicate | comparison =>
      have impossible : fewer + 1 < 1 := low
      omega
    -- a fork fails with the first of its operands that is too high
    | and left right | or left right =>
      have bound : fewer + 1 < 1 + max left.height right.height := low
      rcases Nat.lt_or_ge fewer left.height with short | enough
      · rw [within, ih short]
        rfl
      · have other : fewer < right.height := by omega
        rw [within, ih other]
        cases walk.within fewer left <;> rfl
    | not inner | group inner =>
      have bound : fewer + 1 < 1 + inner.height := low
      rw [within, ih (by omega)]
      rfl

theorem Computes.within_eq (computes : walk.Computes function) (calls : Nat) (expr : Expr) :
    walk.within calls expr = if expr.height ≤ calls then some (function expr) else none := by
  split
  · exact computes.within_of_height_le ‹_›
  · exact within_of_lt_height (Nat.lt_of_not_le ‹_›)

end

def evaluation (context : TagContext) : Walk (Except EvalError Bool) where
  predicate path := .ok (path.holds context)
  comparison key op operand := Expr.evalComparison key op operand context
  and left right :=
    match left with
    | .ok true => right
    | decided => decided
  or left right :=
    match left with
    | .ok false => right
    | decided => decided
  not inner := inner.map Bool.not
  group inner := inner

def validation (limit : Nat) : Walk (Nat → Except ValidityError Unit) where
  predicate path _ := path.check
  comparison key _ operand _ := do
    key.check
    if Number.isFinite operand then .ok () else .error (.nonFiniteOperand key.text operand)
  and left right depth := do
    left depth
    right depth
  or left right depth := do
    left depth
    right depth
  not inner depth := if depth + 1 ≤ limit then inner (depth + 1) else .error (.nestingTooDeep (depth + 1) limit)
  group inner depth := if depth + 1 ≤ limit then inner (depth + 1) else .error (.nestingTooDeep (depth + 1) limit)

def printing : Walk String where
  predicate path := "tag." ++ path.text
  comparison key op operand := "tag." ++ key.text ++ "." ++ op.word ++ "." ++ Number.text operand
  and left right := left ++ " and " ++ right
  or left right := left ++ " or " ++ right
  not inner := "not " ++ inner
  group inner := "(" ++ inner ++ ")"

def stripping : Walk Expr where
  predicate := .predicate
  comparison := .comparison
  and := .and
  or := .or
  not := .not
  group inner := inner

theorem evaluation_computes (context : TagContext) : (evaluation context).Computes (·.eval context) :=
  ⟨fun _ => rfl, fun _ _ _ => rfl, fun _ _ => rfl, fun _ _ => rfl, fun _ => rfl, fun _ => rfl⟩

theorem validation_computes (limit : Nat) : (validation limit).Computes fun expr depth => expr.checkUnder limit depth :=
  ⟨fun _ => rfl, fun _ _ _ => rfl, fun _ _ => rfl, fun _ _ => rfl, fun _ => rfl, fun _ => rfl⟩

theorem printing_computes : printing.Computes Expr.text :=
  ⟨fun _ => rfl, fun _ _ _ => rfl, fun _ _ => rfl, fun _ _ => rfl, fun _ => rfl, fun _ => rfl⟩

theorem stripping_computes : stripping.Computes Expr.stripGroups :=
  ⟨fun _ => rfl, fun _ _ _ => rfl, fun _ _ => rfl, fun _ _ => rfl, fun _ => rfl, fun _ => rfl⟩

end Walk

end TagQuery
