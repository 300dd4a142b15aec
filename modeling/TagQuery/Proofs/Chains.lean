import Mathlib.Data.List.Basic
import TagQuery.Expr.Eval
import TagQuery.Expr.Printer

namespace TagQuery.Expr

/-- A tree that joins operands by one operator, in their order and nested in any way. Groups may stand around any part. -/
inductive Chain (join : Expr → Expr → Expr) : List Expr → Expr → Prop
  | operand (expr : Expr) : Chain join [expr] expr
  | joined {front back : List Expr} {left right : Expr} :
      Chain join front left → Chain join back right → Chain join (front ++ back) (join left right)
  | group {operands : List Expr} {inner : Expr} : Chain join operands inner → Chain join operands (.group inner)

/-- The first result that is not `neutral`, which stands if there is no other. -/
def decisive (neutral : Bool) (results : List (Except EvalError Bool)) : Except EvalError Bool :=
  (results.find? fun result => result ≠ .ok neutral).getD (.ok neutral)

section

variable {neutral : Bool} (context : TagContext)

theorem decisive_singleton (result : Except EvalError Bool) : decisive neutral [result] = result := by
  by_cases same : result = .ok neutral
  · subst same
    simp [decisive]
  · simp [decisive, same]

theorem decisive_append (front back : List (Except EvalError Bool)) :
    decisive neutral (front ++ back) =
      if decisive neutral front = .ok neutral then decisive neutral back else decisive neutral front := by
  unfold decisive
  rw [List.find?_append]
  cases found : front.find? fun result => result ≠ .ok neutral with
  | none => rw [Option.none_or, Option.getD_none, if_pos rfl]
  | some result =>
    have other : result ≠ .ok neutral := by simpa using List.find?_some found
    rw [Option.some_or, Option.getD_some, if_neg other]

theorem decisive_negated (results : List (Except EvalError Bool)) :
    decisive (!neutral) (results.map (Except.map Bool.not)) = (decisive neutral results).map Bool.not := by
  have flipped (result : Except EvalError Bool) :
      result.map Bool.not ≠ .ok (!neutral) ↔ result ≠ .ok neutral := by
    cases result with
    | error error => simp [Except.map]
    | ok holds => simp [Except.map]
  simp only [decisive, List.find?_map, Function.comp_def, flipped]
  cases results.find? fun result => result ≠ .ok neutral <;> rfl

theorem eval_and (left right : Expr) :
    (Expr.and left right).eval context = if left.eval context = .ok true then right.eval context else left.eval context := by
  rw [Expr.eval]
  cases left.eval context with
  | error error => rfl
  | ok holds => cases holds <;> rfl

theorem eval_or (left right : Expr) :
    (Expr.or left right).eval context = if left.eval context = .ok false then right.eval context else left.eval context := by
  rw [Expr.eval]
  cases left.eval context with
  | error error => rfl
  | ok holds => cases holds <;> rfl

/-- An operator that leaves the result to its right operand just where the left one is neutral gives the first decisive
    operand of any chain that it joins. -/
theorem Chain.eval {join : Expr → Expr → Expr} {operands : List Expr} {tree : Expr}
    (passes : ∀ left right, (join left right).eval context =
      if left.eval context = .ok neutral then right.eval context else left.eval context)
    (chain : Chain join operands tree) :
    tree.eval context = decisive neutral (operands.map (Expr.eval context)) := by
  induction chain with
  | operand expr => exact (decisive_singleton _).symm
  | joined _ _ first second => rw [passes, first, second, List.map_append, decisive_append]
  | group _ ih => exact ih

theorem Chain.eval_not {join dual : Expr → Expr → Expr} {operands : List Expr} {tree other : Expr}
    (passes : ∀ left right, (join left right).eval context =
      if left.eval context = .ok neutral then right.eval context else left.eval context)
    (passes' : ∀ left right, (dual left right).eval context =
      if left.eval context = .ok (!neutral) then right.eval context else left.eval context)
    (chain : Chain join operands tree) (opposite : Chain dual (operands.map .not) other) :
    (Expr.not tree).eval context = other.eval context := by
  have negated : (operands.map Expr.not).map (Expr.eval context) =
      (operands.map (Expr.eval context)).map (Except.map Bool.not) := by
    rw [List.map_map, List.map_map]
    rfl
  calc (tree.eval context).map Bool.not
      = (decisive neutral (operands.map (Expr.eval context))).map Bool.not := by rw [chain.eval context passes]
    _ = decisive (!neutral) ((operands.map (Expr.eval context)).map (Except.map Bool.not)) :=
        (decisive_negated _).symm
    _ = other.eval context := by rw [← negated, opposite.eval context passes']

end

/-- Chains of `and` and of `or` mean the same however they are nested: what their first operand comes to that does not
    leave the result open. The negation of one kind means what the other kind means with negated operands. -/
theorem chains_take_first_decisive (operands : List Expr) (context : TagContext) :
    (∀ tree, Chain .and operands tree →
      tree.eval context = decisive true (operands.map (eval context)) ∧
      ∀ other, Chain .or (operands.map .not) other → (not tree).eval context = other.eval context) ∧
    (∀ tree, Chain .or operands tree →
      tree.eval context = decisive false (operands.map (eval context)) ∧
      ∀ other, Chain .and (operands.map .not) other → (not tree).eval context = other.eval context) := by
  constructor
  · intro tree chain
    exact ⟨chain.eval context (eval_and context), fun _ opposite =>
      chain.eval_not context (eval_and context) (eval_or context) opposite⟩
  · intro tree chain
    exact ⟨chain.eval context (eval_or context), fun _ opposite =>
      chain.eval_not context (eval_or context) (eval_and context) opposite⟩

theorem chains_take_first_decisive_fault :
    ∃ (context : TagContext) (operands : List Expr) (tree other : Expr),
      tree.text = "(tag.a and tag.score.gt.80) and tag.b" ∧ Chain .and operands tree ∧
      other.text = "not tag.a or (not tag.score.gt.80 or not tag.b)" ∧ Chain .or (operands.map .not) other ∧
      operands.map (eval context) = [.ok true, .error (.nonNumericTagValue "score"), .ok false] ∧
      tree.eval context = .error (.nonNumericTagValue "score") ∧ (not tree).eval context = other.eval context := by
  let context : TagContext := .ofList [("a", ""), ("score", "high")]
  let score : Expr := .comparison ⟨["score"]⟩ .greater (Number.Decimal.toFloat false ⟨80, 0⟩)
  let operands : List Expr := [.predicate ⟨["a"]⟩, score, .predicate ⟨["b"]⟩]
  let tree : Expr := .and (.group (.and (.predicate ⟨["a"]⟩) score)) (.predicate ⟨["b"]⟩)
  let other : Expr := .or (.not (.predicate ⟨["a"]⟩)) (.group (.or (.not score) (.not (.predicate ⟨["b"]⟩))))
  have chain : Chain .and operands tree := .joined (.group (.joined (.operand _) (.operand _))) (.operand _)
  have opposite : Chain .or (operands.map .not) other :=
    .joined (.operand _) (.group (.joined (.operand _) (.operand _)))
  have results : operands.map (eval context) = [.ok true, .error (.nonNumericTagValue "score"), .ok false] := by
    decide +kernel
  obtain ⟨value, negation⟩ := (chains_take_first_decisive operands context).1 tree chain
  rw [results] at value
  exact ⟨context, operands, tree, other, by decide +kernel, chain, by decide +kernel, opposite, results, value,
    negation other opposite⟩

end TagQuery.Expr
