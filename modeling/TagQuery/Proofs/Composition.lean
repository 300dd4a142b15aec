import TagQuery.Proofs.Regrouping

namespace TagQuery

open Lexer Text Layout

theorem Lexer.Ends.append_closing {token : Token} {text : List Char} (ends : Ends token text) (following : List Char) :
    Ends token (text ++ ')' :: following) := by
  have word (stops : startsWith isWordChar text = false) : startsWith isWordChar (text ++ ')' :: following) = false := by
    cases text with
    | nil => rfl
    | cons c text => exact stops
  cases token with
  | word | keyword => exact word ends
  | number =>
    obtain ⟨stops, point⟩ := ends
    refine ⟨word stops, ?_⟩
    intro rest whole
    -- a point at the end of the text stands before the parenthesis, which is no digit
    cases text with
    | nil => cases whole
    | cons c text =>
      obtain ⟨rfl, rfl⟩ := List.cons.inj whole
      have next := point text rfl
      cases text with
      | nil => rfl
      | cons d text => exact next
  | dot | opening | closing | eof => exact trivial

namespace Layout

variable {text following : List Char} {tokens more : List Token}

theorem Splits.before_closing (splits : Splits text tokens) (rest : Splits following more) :
    Splits (text ++ ')' :: following) (tokens ++ .closing :: more) := by
  obtain ⟨layout, fits, rfl, rfl⟩ := splits
  induction fits with
  | ended blank => exact .item blank .closing trivial rest
  | @item item items tail blank form ends _ ih =>
    rw [source_cons, List.append_assoc, List.append_assoc]
    exact .item blank form (ends.append_closing following) ih

/-- A text in parentheses splits as it does alone, whatever it begins and ends with. -/
theorem Splits.enclosed {gap : List Char} (blank : IsGap gap) (splits : Splits text tokens)
    (rest : Splits following more) :
    Splits (gap ++ '(' :: (text ++ ')' :: following)) (.opening :: (tokens ++ .closing :: more)) :=
  .item blank .opening trivial (splits.before_closing rest)

theorem lexed_total (layout : Layout) (fits : layout.Fits) (place : Position) (counts : TokenCounts) :
    (layout.lexed place counts).counts.total = counts.total + layout.tokens.length := by
  show (layout.items.foldl (fun counts item => counts.record item.token) counts).total = _
  induction fits generalizing counts with
  | ended => rfl
  | @item item items tail _ form _ _ ih =>
    rw [List.foldl_cons, ih, Scanner.record_total form]
    simp only [tokens, List.map_cons, List.length_cons]
    omega

end Layout

namespace Expr

theorem eval_and_eq_bind (left right : Expr) (context : TagContext) :
    (Expr.and (.group left) (.group right)).eval context =
      (do if ← left.eval context then right.eval context else return false) := by
  simp only [eval]
  cases left.eval context with
  | error error => rfl
  | ok holds => cases holds <;> rfl

theorem eval_or_eq_bind (left right : Expr) (context : TagContext) :
    (Expr.or (.group left) (.group right)).eval context =
      (do if ← left.eval context then return true else right.eval context) := by
  simp only [eval]
  cases left.eval context with
  | error error => rfl
  | ok holds => cases holds <;> rfl

theorem eval_not_eq_bind (inner : Expr) (context : TagContext) :
    (Expr.not (.group inner)).eval context = (do return !(← inner.eval context)) := by
  simp only [eval]
  cases inner.eval context <;> rfl

end Expr

namespace Filter

/-- A source that compiles under a limit on nesting, with the number of its tokens. -/
structure Compiles (limit : Nat) (source : String) (filter : Filter) (count : Nat) : Prop where
  compiled : compile limit source = .ok filter
  counted : (tokenize source).map (fun lexed => lexed.counts.total) = .ok count

variable {limit count : Nat} {source : String} {filter : Filter}

theorem Compiles.spelled (compiles : Compiles limit source filter count) :
    ∃ tokens, Splits source.toList tokens ∧ tokens.length = count ∧ Spells .disjunction tokens filter.expr ∧
      ∀ operand ∈ filter.expr.operands, Number.isFinite operand.2 = true := by
  obtain ⟨compiled, counted⟩ := compiles
  obtain ⟨lexed, expr, lexing, parsing, checking, rfl⟩ := (compile_ok_iff limit source filter).mp compiled
  rw [lexing] at counted
  have total : lexed.counts.total = count := Except.ok.inj counted
  obtain ⟨layout, fits, text, -, rfl⟩ := (tokenize_ok_iff_layout source lexed).mp lexing
  obtain ⟨spelled, nested⟩ := (Reader.run_ok_iff _ _ _ expr).mp parsing
  rw [fits.untilEof] at spelled
  rw [layout.lexed_total fits] at total
  have zero : ({} : TokenCounts).total = 0 := rfl
  exact ⟨layout.tokens, ⟨layout, fits, text, rfl⟩, by omega, spelled,
    (spelled.check_ok_iff fits.lexical nested).mp checking⟩

theorem compiles_of_spelled {tokens : List Token} {expr : Expr} (splits : Splits source.toList tokens)
    (few : tokens.length ≤ Limits.tokens) (spelled : Spells .disjunction tokens expr)
    (nested : expr.nesting ≤ Limits.clampNesting limit)
    (finite : ∀ operand ∈ expr.operands, Number.isFinite operand.2 = true) :
    Compiles limit source (.ofExpr source expr) tokens.length := by
  obtain ⟨layout, fits, text, rfl⟩ := splits
  have items : layout.items.length ≤ Limits.tokens := by rwa [Layout.tokens, List.length_map] at few
  have lexing := (tokenize_ok_iff_layout source _).mpr ⟨layout, fits, text, items, rfl⟩
  have parsing : Expr.ofTokens limit (layout.lexed .start {}).tokens = .ok expr := by
    refine (Reader.run_ok_iff _ _ _ expr).mpr ⟨?_, nested⟩
    rw [fits.untilEof]
    exact spelled
  have checking := (spelled.check_ok_iff fits.lexical nested).mpr finite
  refine ⟨(compile_ok_iff limit source _).mpr ⟨_, expr, lexing, parsing, checking, rfl⟩, ?_⟩
  rw [lexing]
  apply congrArg Except.ok
  exact (layout.lexed_total fits .start {}).trans (Nat.zero_add _)

section Joined

variable {first second : String} {left right : Filter} {count' : Nat}

theorem Compiles.joined (one : Compiles limit first left count) (other : Compiles limit second right count')
    (joining : Keyword) {expr : Expr}
    (text : source.toList = '(' :: (first.toList ++ ')' :: ([' '] ++ (joining.text.toList ++
      ([' '] ++ '(' :: (second.toList ++ [')']))))))
    (spells : ∀ front back, Spells .operand front (.group left.expr) → Spells .operand back (.group right.expr) →
      Spells .disjunction (front ++ .keyword joining :: back) expr)
    (operands : expr.operands = left.expr.operands ++ right.expr.operands)
    (few : count + count' + 5 ≤ Limits.tokens) (nested : expr.nesting ≤ Limits.clampNesting limit) :
    Compiles limit source (.ofExpr source expr) (count + count' + 5) := by
  obtain ⟨front, splits, length, spelled, finite⟩ := one.spelled
  obtain ⟨back, splits', length', spelled', finite'⟩ := other.spelled
  have last : Splits ([' '] ++ '(' :: (second.toList ++ [')'])) (.opening :: (back ++ [.closing])) :=
    splits'.enclosed rfl splits_nil
  have ends : Ends (.keyword joining) ([' '] ++ '(' :: (second.toList ++ [')'])) := rfl
  have middle := @Splits.item [' '] _ _ _ _ rfl (isLexeme_keyword joining) ends last
  have whole := @Splits.enclosed _ _ _ _ [] rfl splits middle
  rw [List.nil_append, ← text] at whole
  have total : (Token.opening :: (front ++ .closing :: .keyword joining :: .opening :: (back ++ [.closing]))).length =
      count + count' + 5 := by
    simp only [List.length_cons, List.length_append, List.length_nil]
    omega
  have spelling := spells _ _ (.group spelled) (.group spelled')
  rw [List.cons_append, List.append_assoc] at spelling
  rw [← total]
  apply compiles_of_spelled whole (by omega) spelling nested
  rw [operands, List.forall_mem_append]
  exact ⟨finite, finite'⟩

theorem Compiles.negated (one : Compiles limit first left count) (few : count + 3 ≤ Limits.tokens)
    (text : source.toList = Keyword.not.text.toList ++ ([' '] ++ '(' :: (first.toList ++ [')'])))
    (nested : left.expr.nesting + 2 ≤ Limits.clampNesting limit) :
    Compiles limit source (.ofExpr source (.not (.group left.expr))) (count + 3) := by
  obtain ⟨tokens, splits, length, spelled, finite⟩ := one.spelled
  have last : Splits ([' '] ++ '(' :: (first.toList ++ [')'])) (.opening :: (tokens ++ [.closing])) :=
    splits.enclosed rfl splits_nil
  have ends : Ends (.keyword .not) ([' '] ++ '(' :: (first.toList ++ [')'])) := rfl
  have whole := @Splits.item [] _ _ _ _ rfl (isLexeme_keyword .not) ends last
  rw [List.nil_append, ← text] at whole
  have total : (Token.keyword .not :: .opening :: (tokens ++ [.closing])).length = count + 3 := by
    simp only [List.length_cons, List.length_append, List.length_nil]
    omega
  have spelling := (Spells.not (.group spelled)).as_disjunction
  rw [← total]
  have deep : (Expr.not (.group left.expr)).nesting = 1 + (1 + left.expr.nesting) := rfl
  exact compiles_of_spelled whole (by omega) spelling (by omega) finite

end Joined

/-- Sources that compile can be put together by their texts: in parentheses they keep their expressions
    and the numbers of their tokens, and `and`, `or` and `not` between them decide as the parts do, from
    left to right and up to the first error. -/
theorem compositions_compile (limit : Nat) (first : String) (left : Filter) (count : Nat)
    (one : Compiles limit first left count) (shallow : left.expr.nesting < Limits.clampNesting limit) :
    (∀ second right count', Compiles limit second right count' → right.expr.nesting < Limits.clampNesting limit →
      count + count' + 5 ≤ Limits.tokens →
      (∃ both, Compiles limit ("(" ++ first ++ ") and (" ++ second ++ ")") both (count + count' + 5) ∧
        both.expr = .and (.group left.expr) (.group right.expr) ∧
        ∀ context, both.eval context =
          (do if ← left.eval context then right.eval context else return false)) ∧
      (∃ either, Compiles limit ("(" ++ first ++ ") or (" ++ second ++ ")") either (count + count' + 5) ∧
        either.expr = .or (.group left.expr) (.group right.expr) ∧
        ∀ context, either.eval context =
          (do if ← left.eval context then return true else right.eval context))) ∧
    (left.expr.nesting < Limits.clampNesting limit - 1 → count + 3 ≤ Limits.tokens →
      ∃ opposite, Compiles limit ("not (" ++ first ++ ")") opposite (count + 3) ∧
        opposite.expr = .not (.group left.expr) ∧
        ∀ context, opposite.eval context = (do return !(← left.eval context))) := by
  have limited : left.expr.nesting + 1 ≤ Limits.clampNesting limit := shallow
  refine ⟨fun second right count' other shallow' few => ⟨?_, ?_⟩, fun deeper few => ?_⟩
  · have nested : (Expr.and (.group left.expr) (.group right.expr)).nesting =
        max (1 + left.expr.nesting) (1 + right.expr.nesting) := rfl
    refine ⟨_, one.joined other .and (by simp [Keyword.text]) ?_ rfl few (by omega), rfl, ?_⟩
    · intro front back group group'
      exact .disjunct (.and (.conjunct group) group')
    · intro context
      exact Expr.eval_and_eq_bind _ _ _
  · have nested : (Expr.or (.group left.expr) (.group right.expr)).nesting =
        max (1 + left.expr.nesting) (1 + right.expr.nesting) := rfl
    refine ⟨_, one.joined other .or (by simp [Keyword.text]) ?_ rfl few (by omega), rfl, ?_⟩
    · intro front back group group'
      exact .or group.as_disjunction (.conjunct group')
    · intro context
      exact Expr.eval_or_eq_bind _ _ _
  · refine ⟨_, one.negated few (by simp [Keyword.text]) (by omega), rfl, ?_⟩
    intro context
    exact Expr.eval_not_eq_bind _ _

theorem compositions_compile_nested :
    ∃ first second both opposite,
      Compiles 2 "tag.a.10 OR not tag.b" first 10 ∧ Compiles 2 " (tag.c.ge.-1.5)\n" second 9 ∧
      Compiles 2 "(tag.a.10 OR not tag.b) and ( (tag.c.ge.-1.5)\n)" both 24 ∧
      both.expr = .and (.group first.expr) (.group second.expr) ∧
      Compiles 3 "not (tag.a.10 OR not tag.b)" opposite 13 ∧ opposite.expr = .not (.group first.expr) ∧
      ∀ context, both.eval context = (do if ← first.eval context then second.eval context else return false) := by
  let bound := Number.Decimal.toFloat true ⟨15, -1⟩
  let first : Filter := .ofExpr "tag.a.10 OR not tag.b" (.or (.predicate ⟨["a", "10"]⟩) (.not (.predicate ⟨["b"]⟩)))
  let second : Filter := .ofExpr " (tag.c.ge.-1.5)\n" (.group (.comparison ⟨["c"]⟩ .atLeast bound))
  have one : Compiles 2 "tag.a.10 OR not tag.b" first 10 := ⟨by decide +kernel, by decide +kernel⟩
  have deep : Compiles 3 "tag.a.10 OR not tag.b" first 10 := ⟨by decide +kernel, by decide +kernel⟩
  have other : Compiles 2 " (tag.c.ge.-1.5)\n" second 9 := ⟨by decide +kernel, by decide +kernel⟩
  obtain ⟨⟨both, compiles, same, decides⟩, -⟩ :=
    (compositions_compile 2 _ first 10 one (by decide)).1 _ second 9 other (by decide) (by decide)
  obtain ⟨opposite, compiles', same', -⟩ := (compositions_compile 3 _ first 10 deep (by decide)).2 (by decide) (by decide)
  exact ⟨first, second, both, opposite, one, other, compiles, same, compiles', same', decides⟩

end Filter

end TagQuery
