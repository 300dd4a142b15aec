import TagQuery.Proofs.BoundedWalks
import TagQuery.Proofs.ByteOrder
import TagQuery.Proofs.Composition
import TagQuery.Proofs.ConditionTexts

namespace TagQuery

namespace NodeCounts

variable (first second : NodeCounts)

@[simp]
theorem predicates_add : (first + second).predicates = first.predicates + second.predicates := rfl

@[simp]
theorem comparisons_add : (first + second).comparisons = first.comparisons + second.comparisons := rfl

@[simp]
theorem ands_add : (first + second).ands = first.ands + second.ands := rfl

@[simp]
theorem ors_add : (first + second).ors = first.ors + second.ors := rfl

@[simp]
theorem nots_add : (first + second).nots = first.nots + second.nots := rfl

@[simp]
theorem groups_add : (first + second).groups = first.groups + second.groups := rfl

/-- A binary tree has one leaf more than it has forks, whatever stands on its edges. -/
theorem leaves_ofExpr (expr : Expr) : (ofExpr expr).leaves = (ofExpr expr).ands + (ofExpr expr).ors + 1 := by
  simp only [leaves]
  induction expr with
  | predicate | comparison => rfl
  | and left right first second | or left right first second =>
    simp only [ofExpr, predicates_add, comparisons_add, ands_add, ors_add]
    omega
  | not inner ih | group inner ih =>
    simp only [ofExpr, predicates_add, comparisons_add, ands_add, ors_add]
    omega

theorem nodeCount_ofExpr (expr : Expr) : (ofExpr expr).leaves + (ofExpr expr).combinators = expr.nodeCount := by
  simp only [leaves, combinators]
  induction expr with
  | predicate | comparison => rfl
  | and left right first second | or left right first second =>
    simp only [ofExpr, Expr.nodeCount, predicates_add, comparisons_add, ands_add, ors_add, nots_add, groups_add]
    omega
  | not inner ih | group inner ih =>
    simp only [ofExpr, Expr.nodeCount, predicates_add, comparisons_add, ands_add, ors_add, nots_add, groups_add]
    omega

end NodeCounts

namespace Expr

def predicates : Expr → List TagPath
  | .predicate path => [path]
  | .comparison _ _ _ => []
  | .and left right | .or left right => left.predicates ++ right.predicates
  | .not inner | .group inner => inner.predicates

def leafTokens (expr : Expr) : Nat :=
  (expr.predicates.map fun path => 2 * path.segments.length + 1).sum +
    (expr.operands.map fun operand => 2 * operand.1.segments.length + 5).sum

theorem leafTokens_append {left right expr : Expr} (predicates : expr.predicates = left.predicates ++ right.predicates)
    (operands : expr.operands = left.operands ++ right.operands) :
    expr.leafTokens = left.leafTokens + right.leafTokens := by
  rw [leafTokens, leafTokens, leafTokens, predicates, operands, List.map_append, List.map_append, List.sum_append,
    List.sum_append]
  omega

theorem tokens_length (expr : Expr) :
    expr.tokens.length = (NodeCounts.ofExpr expr).ands + (NodeCounts.ofExpr expr).ors + (NodeCounts.ofExpr expr).nots +
      2 * (NodeCounts.ofExpr expr).groups + expr.leafTokens := by
  induction expr with
  | predicate path =>
    simp only [tokens, List.length_cons, TagPath.tokens_length, NodeCounts.ofExpr, leafTokens, predicates, operands,
      List.map_cons, List.map_nil, List.sum_cons, List.sum_nil]
    omega
  | comparison key op operand =>
    simp only [tokens, List.length_cons, List.length_append, List.length_nil, TagPath.tokens_length, NodeCounts.ofExpr,
      leafTokens, predicates, operands, List.map_cons, List.map_nil, List.sum_cons, List.sum_nil]
    omega
  | and left right first second =>
    have leaves := @leafTokens_append left right (.and left right) rfl rfl
    simp only [tokens, List.length_append, List.length_cons, NodeCounts.ofExpr, NodeCounts.ands_add, NodeCounts.ors_add,
      NodeCounts.nots_add, NodeCounts.groups_add]
    omega
  | or left right first second =>
    have leaves := @leafTokens_append left right (.or left right) rfl rfl
    simp only [tokens, List.length_append, List.length_cons, NodeCounts.ofExpr, NodeCounts.ands_add, NodeCounts.ors_add,
      NodeCounts.nots_add, NodeCounts.groups_add]
    omega
  | not inner ih =>
    have leaves : (Expr.not inner).leafTokens = inner.leafTokens := rfl
    simp only [tokens, List.length_cons, NodeCounts.ofExpr, NodeCounts.ands_add, NodeCounts.ors_add, NodeCounts.nots_add,
      NodeCounts.groups_add]
    omega
  | group inner ih =>
    have leaves : (Expr.group inner).leafTokens = inner.leafTokens := rfl
    simp only [tokens, List.length_cons, List.length_append, List.length_nil, NodeCounts.ofExpr, NodeCounts.ands_add,
      NodeCounts.ors_add, NodeCounts.nots_add, NodeCounts.groups_add]
    omega

theorem lookups_length (expr : Expr) : expr.lookups.length = (NodeCounts.ofExpr expr).leaves := by
  simp only [NodeCounts.leaves]
  induction expr with
  | predicate | comparison => rfl
  | and left right first second | or left right first second =>
    simp only [lookups, List.length_append, NodeCounts.ofExpr, NodeCounts.predicates_add, NodeCounts.comparisons_add]
    omega
  | not inner ih | group inner ih =>
    simp only [lookups, NodeCounts.ofExpr, NodeCounts.predicates_add, NodeCounts.comparisons_add]
    omega

theorem referencedKeys_increasing (expr : Expr) : expr.referencedKeys.Pairwise (· < ·) := by
  have ordered : expr.referencedKeys.Pairwise fun first second => compare first second = .lt := Std.TreeSet.ordered_toList
  exact ordered.imp Text.compare_lt_iff.mp

theorem referencedKeys_length_le (expr : Expr) : expr.referencedKeys.length ≤ (NodeCounts.ofExpr expr).leaves := by
  rw [referencedKeys, Std.TreeSet.length_toList, ← lookups_length]
  exact Std.TreeSet.size_ofList_le

end Expr

def Token.keywords (tokens : List Token) : Nat := tokens.countP fun token => token.tokenClass = .operator

namespace Token

variable (first second tokens : List Token)

theorem keywords_append : keywords (first ++ second) = keywords first + keywords second := List.countP_append

theorem keywords_keyword (joining : Keyword) : keywords (.keyword joining :: tokens) = keywords tokens + 1 :=
  List.countP_cons_of_pos rfl

theorem keywords_cons {token : Token} (other : decide (token.tokenClass = .operator) = false) :
    keywords (token :: tokens) = keywords tokens :=
  List.countP_cons_of_neg (Bool.eq_false_iff.mp other)

theorem keywords_segment {token : Token} {segment : String} (spelled : token.IsSegment segment) :
    keywords (token :: tokens) = keywords tokens := by
  refine keywords_cons tokens ?_
  cases spelled <;> rfl

end Token

namespace SpellsPath

variable {tokens : List Token} {path : List String}

theorem two_le_length (spelled : SpellsPath tokens path) : 2 ≤ tokens.length := by
  cases spelled with
  | first => exact Nat.le_refl 2
  | next =>
    rw [List.length_append]
    exact Nat.le_add_left 2 _

theorem keywords (spelled : SpellsPath tokens path) : Token.keywords tokens = 0 := by
  induction spelled with
  | first spelled =>
    rw [Token.keywords_cons _ rfl, Token.keywords_segment _ spelled]
    rfl
  | next _ spelled _ ih =>
    rw [Token.keywords_append, ih, Token.keywords_cons _ rfl, Token.keywords_segment _ spelled]
    rfl

end SpellsPath

namespace Spells

variable {stratum : Stratum} {tokens : List Token} {expr : Expr}

theorem keywords (spelled : Spells stratum tokens expr) :
    Token.keywords tokens =
      (NodeCounts.ofExpr expr).ands + (NodeCounts.ofExpr expr).ors + (NodeCounts.ofExpr expr).nots := by
  induction spelled with
  | disjunct _ ih | conjunct _ ih => exact ih
  | or _ _ first second | and _ _ first second =>
    simp only [Token.keywords_append, Token.keywords_keyword, first, second, NodeCounts.ofExpr, NodeCounts.ands_add,
      NodeCounts.ors_add, NodeCounts.nots_add]
    omega
  | not _ ih =>
    simp only [Token.keywords_keyword, ih, NodeCounts.ofExpr, NodeCounts.ands_add, NodeCounts.ors_add,
      NodeCounts.nots_add]
    omega
  | @group tokens inner _ ih =>
    have closing : Token.keywords [.closing] = 0 := rfl
    rw [Token.keywords_cons _ rfl, Token.keywords_append, ih, closing]
    simp only [NodeCounts.ofExpr, NodeCounts.ands_add, NodeCounts.ors_add, NodeCounts.nots_add]
    omega
  | predicate spelled =>
    rw [Token.keywords_cons _ rfl, spelled.keywords]
    rfl
  | comparison spelled named =>
    rw [Token.keywords_cons _ rfl, Token.keywords_append, spelled.keywords, Token.keywords_cons _ rfl,
      Token.keywords_segment _ named]
    rfl

theorem three_le_length (spelled : Spells stratum tokens expr) : 3 ≤ tokens.length := by
  induction spelled with
  | disjunct _ ih | conjunct _ ih => exact ih
  | or _ _ first | and _ _ first =>
    rw [List.length_append]
    omega
  | not _ ih =>
    rw [List.length_cons]
    omega
  | group _ ih =>
    rw [List.length_cons, List.length_append]
    omega
  | predicate spelled =>
    rw [List.length_cons]
    exact Nat.succ_le_succ spelled.two_le_length
  | comparison spelled =>
    rw [List.length_cons, List.length_append]
    have two := spelled.two_le_length
    omega

/-- A level of the tree that is no nesting takes a keyword and an operand of three tokens. -/
theorem height_le (spelled : Spells stratum tokens expr) : 4 * expr.height ≤ 4 * expr.nesting + tokens.length + 1 := by
  induction spelled with
  | disjunct _ ih | conjunct _ ih => exact ih
  -- the other operand and the keyword are four tokens
  | or one other first second | and one other first second =>
    have left := one.three_le_length
    have right := other.three_le_length
    simp only [Expr.height, Expr.nesting, List.length_append, List.length_cons]
    omega
  | not _ ih =>
    simp only [Expr.height, Expr.nesting, List.length_cons]
    omega
  | group _ ih =>
    simp only [Expr.height, Expr.nesting, List.length_cons, List.length_append]
    omega
  | predicate spelled =>
    have two := spelled.two_le_length
    simp only [Expr.height, Expr.nesting, List.length_cons]
    omega
  | comparison spelled =>
    have two := spelled.two_le_length
    simp only [Expr.height, Expr.nesting, List.length_cons, List.length_append]
    omega

end Spells

theorem TokenCounts.record_operators (counts : TokenCounts) (token : Token) :
    (counts.record token).operators = counts.operators + Token.keywords [token] := by
  cases token <;> rfl

theorem Layout.lexed_operators (layout : Layout) (place : Position) (counts : TokenCounts) :
    (layout.lexed place counts).counts.operators = counts.operators + Token.keywords layout.tokens := by
  obtain ⟨items, tail⟩ := layout
  show (items.foldl (fun counts item => counts.record item.token) counts).operators = _
  induction items generalizing counts with
  | nil => rfl
  | cons item items ih =>
    have split : Layout.tokens ⟨item :: items, tail⟩ = [item.token] ++ Layout.tokens ⟨items, tail⟩ := rfl
    rw [List.foldl_cons, ih, TokenCounts.record_operators, split, Token.keywords_append]
    omega

namespace Filter

/-- The tokens of a source that compiles are all in its tree, and the tree is not much higher than it is nested, so that
    no walk of it needs many calls inside each other. -/
theorem shape_accounts_for_tokens {limit : Nat} {source : String} {filter : Filter}
    (compiled : compile limit source = .ok filter) :
    ∃ lexed, tokenize source = .ok lexed ∧
      filter.shape.counts.leaves = filter.shape.counts.ands + filter.shape.counts.ors + 1 ∧
      filter.shape.counts.leaves + filter.shape.counts.combinators = filter.shape.nodes ∧
      filter.shape.nodes = filter.expr.nodeCount ∧
      lexed.counts.operators = filter.shape.counts.ands + filter.shape.counts.ors + filter.shape.counts.nots ∧
      lexed.counts.total =
        filter.shape.counts.ands + filter.shape.counts.ors + filter.shape.counts.nots + 2 * filter.shape.counts.groups +
          (filter.expr.predicates.map fun path => 2 * path.segments.length + 1).sum +
          (filter.expr.operands.map fun operand => 2 * operand.1.segments.length + 5).sum ∧
      filter.shape.keys.Pairwise (fun first second => Text.bytes first < Text.bytes second) ∧
      filter.shape.keys.length ≤ filter.shape.counts.leaves ∧
      filter.shape.height ≤ filter.shape.nesting + 2048 ∧
      filter.shape.nesting + 2048 ≤ Limits.clampNesting limit + 2048 ∧
      (∀ context, (Walk.evaluation context).within (Limits.clampNesting limit + 2048) filter.expr =
        some (filter.eval context)) ∧
      (Walk.validation (Limits.clampNesting limit)).within (Limits.clampNesting limit + 2048) filter.expr =
        some (fun depth => filter.expr.checkUnder (Limits.clampNesting limit) depth) ∧
      Walk.printing.within (Limits.clampNesting limit + 2048) filter.expr = some filter.canonical ∧
      Walk.stripping.within (Limits.clampNesting limit + 2048) filter.expr = some filter.expr.stripGroups := by
  obtain ⟨lexed, expr, lexing, parsing, -, rfl⟩ := (compile_ok_iff limit source filter).mp compiled
  obtain ⟨layout, fits, -, few, rfl⟩ := (tokenize_ok_iff_layout source lexed).mp lexing
  obtain ⟨spelled, nested⟩ := (Reader.run_ok_iff _ _ _ expr).mp parsing
  rw [fits.untilEof] at spelled
  have few : layout.tokens.length ≤ 8192 := (List.length_map _).trans_le few
  have flat := spelled.height_le
  have high : expr.height ≤ Limits.clampNesting limit + 2048 := by omega
  have operators := layout.lexed_operators .start {}
  have total := layout.lexed_total fits .start {}
  have whole := spelled.length_eq.trans expr.tokens_length
  have walked {α : Type} {walk : Walk α} {function : Expr → α} (computes : walk.Computes function) :
      walk.within (Limits.clampNesting limit + 2048) expr = some (function expr) := by
    rw [computes.within_eq, if_pos high]
  refine ⟨_, lexing, NodeCounts.leaves_ofExpr expr, NodeCounts.nodeCount_ofExpr expr, rfl, ?_, ?_,
    expr.referencedKeys_increasing.imp Text.bytes_lt_iff.mpr, expr.referencedKeys_length_le, ?_, ?_,
    fun context => walked (Walk.evaluation_computes context), walked (Walk.validation_computes _),
    walked Walk.printing_computes, walked Walk.stripping_computes⟩
  · rw [operators, spelled.keywords]
    exact Nat.zero_add _
  · rw [total, whole, Expr.leafTokens]
    exact (Nat.zero_add _).trans (Nat.add_assoc _ _ _).symm
  · show expr.height ≤ expr.nesting + 2048
    omega
  · exact Nat.add_le_add_right nested 2048

theorem shape_accounts_for_tokens_negated :
    ∃ filter lexed, compile 2 "NOT (tag.a.x and tag.b) or tag.b.ge.1.50" = .ok filter ∧
      tokenize "NOT (tag.a.x and tag.b) or tag.b.ge.1.50" = .ok lexed ∧
      lexed.counts.operators = 3 ∧ lexed.counts.total = 20 ∧ filter.shape.counts.leaves = 3 ∧
      filter.shape.height ≤ filter.shape.nesting + 2048 ∧
      Walk.printing.within 2050 filter.expr = some "not (tag.a.x and tag.b) or tag.b.ge.1.5" := by
  let bound := Number.Decimal.toFloat false ⟨15, -1⟩
  let expr : Expr := .or (.not (.group (.and (.predicate ⟨["a", "x"]⟩) (.predicate ⟨["b"]⟩))))
    (.comparison ⟨["b"]⟩ .atLeast bound)
  have compiled : compile 2 "NOT (tag.a.x and tag.b) or tag.b.ge.1.50" =
      .ok (.ofExpr "NOT (tag.a.x and tag.b) or tag.b.ge.1.50" expr) := by decide +kernel
  have printed : expr.text = "not (tag.a.x and tag.b) or tag.b.ge.1.5" := by decide +kernel
  obtain ⟨lexed, lexing, leaves, -, -, operators, total, -, -, high, -, -, -, printing, -⟩ :=
    shape_accounts_for_tokens compiled
  exact ⟨_, lexed, compiled, lexing, operators, total, leaves, high, printing.trans (congrArg some printed)⟩

end Filter

end TagQuery
