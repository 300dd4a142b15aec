import TagQuery.Expr.Eval
import TagQuery.Proofs.RoundTrip

namespace TagQuery

open Lexer Text Layout

namespace Expr

def stratum : Expr → Stratum
  | .or _ _ => .disjunction
  | .and _ _ => .conjunction
  | _ => .operand

/-- Whether no operand would need parentheses: no `or` under `and` or `not`, and no `and` under `not`. -/
def ranked : Expr → Bool
  | .predicate _ | .comparison _ _ _ => true
  | .and left right =>
    left.stratum ≠ .disjunction && right.stratum ≠ .disjunction && left.ranked && right.ranked
  | .or left right => left.ranked && right.ranked
  | .not inner => inner.stratum = .operand && inner.ranked
  | .group inner => inner.ranked

def leftNested : Expr → Bool
  | .predicate _ | .comparison _ _ _ => true
  | .and left right => right.stratum ≠ .conjunction && left.leftNested && right.leftNested
  | .or left right => right.stratum ≠ .disjunction && left.leftNested && right.leftNested
  | .not inner | .group inner => inner.leftNested

def conjoin (left : Expr) : Expr → Expr
  | .and first second => .and (conjoin left first) second
  | operand => .and left operand

def disjoin (left : Expr) : Expr → Expr
  | .or first second => .or (disjoin left first) second
  | operand => .or left operand

/-- The expression with its chains nested to the left, as they are read from source. -/
def regrouped : Expr → Expr
  | .predicate path => .predicate path
  | .comparison key op operand => .comparison key op operand
  | .and left right => conjoin left.regrouped right.regrouped
  | .or left right => disjoin left.regrouped right.regrouped
  | .not inner => .not inner.regrouped
  | .group inner => .group inner.regrouped

theorem conjoin_of_stratum (left : Expr) {right : Expr} (tight : right.stratum ≠ .conjunction) :
    conjoin left right = .and left right := by
  cases right with
  | and => exact absurd rfl tight
  | predicate | comparison | or | not | group => rfl

theorem disjoin_of_stratum (left : Expr) {right : Expr} (tight : right.stratum ≠ .disjunction) :
    disjoin left right = .or left right := by
  cases right with
  | or => exact absurd rfl tight
  | predicate | comparison | and | not | group => rfl

/-- An `and` chain means the same however it is nested, errors included. -/
theorem eval_conjoin (left right : Expr) (context : TagContext) :
    (conjoin left right).eval context = (and left right).eval context := by
  induction right with
  | and first second ih _ =>
    simp only [conjoin, eval, ih]
    cases left.eval context with
    | error error => rfl
    | ok holds => cases holds <;> rfl
  | predicate | comparison | or | not | group => rfl

theorem eval_disjoin (left right : Expr) (context : TagContext) :
    (disjoin left right).eval context = (or left right).eval context := by
  induction right with
  | or first second ih _ =>
    simp only [disjoin, eval, ih]
    cases left.eval context with
    | error error => rfl
    | ok holds => cases holds <;> rfl
  | predicate | comparison | and | not | group => rfl

theorem eval_regrouped (expr : Expr) (context : TagContext) :
    expr.regrouped.eval context = expr.eval context := by
  induction expr with
  | predicate | comparison => rfl
  | and left right first second => rw [regrouped, eval_conjoin, eval, eval, first, second]
  | or left right first second => rw [regrouped, eval_disjoin, eval, eval, first, second]
  | not inner ih => rw [regrouped, eval, eval, ih]
  | group inner ih => rw [regrouped, eval, eval, ih]

theorem nesting_conjoin (left right : Expr) : (conjoin left right).nesting = max left.nesting right.nesting := by
  induction right with
  | and first second ih _ =>
    simp only [conjoin, nesting, ih]
    omega
  | predicate | comparison | or | not | group => rfl

theorem nesting_disjoin (left right : Expr) : (disjoin left right).nesting = max left.nesting right.nesting := by
  induction right with
  | or first second ih _ =>
    simp only [disjoin, nesting, ih]
    omega
  | predicate | comparison | and | not | group => rfl

theorem nesting_regrouped (expr : Expr) : expr.regrouped.nesting = expr.nesting := by
  induction expr with
  | predicate | comparison => rfl
  | and left right first second => rw [regrouped, nesting_conjoin, first, second, nesting]
  | or left right first second => rw [regrouped, nesting_disjoin, first, second, nesting]
  | not inner ih => rw [regrouped, nesting, nesting, ih]
  | group inner ih => rw [regrouped, nesting, nesting, ih]

theorem regrouped_of_leftNested {expr : Expr} (nested : expr.leftNested = true) : expr.regrouped = expr := by
  induction expr with
  | predicate | comparison => rfl
  | and left right first second =>
    simp only [leftNested, Bool.and_eq_true, decide_eq_true_eq] at nested
    obtain ⟨⟨tight, inLeft⟩, inRight⟩ := nested
    rw [regrouped, first inLeft, second inRight, conjoin_of_stratum left tight]
  | or left right first second =>
    simp only [leftNested, Bool.and_eq_true, decide_eq_true_eq] at nested
    obtain ⟨⟨tight, inLeft⟩, inRight⟩ := nested
    rw [regrouped, first inLeft, second inRight, disjoin_of_stratum left tight]
  | not inner ih => rw [regrouped, ih nested]
  | group inner ih => rw [regrouped, ih nested]

end Expr

namespace Spells

variable {tokens front back : List Token} {stratum : Stratum} {expr left right : Expr}

theorem as_conjunction (spelled : Spells stratum tokens expr) (tight : stratum ≠ .disjunction) :
    Spells .conjunction tokens expr := by
  cases stratum with
  | disjunction => exact absurd rfl tight
  | conjunction => exact spelled
  | operand => exact .conjunct spelled

theorem as_disjunction (spelled : Spells stratum tokens expr) : Spells .disjunction tokens expr := by
  cases stratum with
  | disjunction => exact spelled
  | conjunction => exact .disjunct spelled
  | operand => exact .disjunct (.conjunct spelled)

theorem stratum_operand (spelled : Spells .operand tokens expr) : expr.stratum = .operand := by
  cases spelled <;> rfl

theorem stratum_conjunction (spelled : Spells .conjunction tokens expr) : expr.stratum ≠ .disjunction := by
  cases spelled with
  | conjunct only =>
    rw [only.stratum_operand]
    decide
  | and => exact nofun

theorem conjoin (first : Spells .conjunction front left) (second : Spells .conjunction back right) :
    Spells .conjunction (front ++ .keyword .and :: back) (left.conjoin right) := by
  generalize level : Stratum.conjunction = stratum at second
  induction second with
  | conjunct only =>
    rw [Expr.conjoin_of_stratum left (by rw [only.stratum_operand]; decide)]
    exact .and first only
  | and _ last ih =>
    have whole := (ih rfl).and last
    rwa [List.append_assoc] at whole
  | _ => cases level

theorem disjoin (first : Spells .disjunction front left) (second : Spells .disjunction back right) :
    Spells .disjunction (front ++ .keyword .or :: back) (left.disjoin right) := by
  generalize level : Stratum.disjunction = stratum at second
  induction second with
  | disjunct only =>
    rw [Expr.disjoin_of_stratum left only.stratum_conjunction]
    exact .or first only
  | or _ last ih =>
    have whole := (ih rfl).or last
    rwa [List.append_assoc] at whole
  | _ => cases level

end Spells

structure TagPath.Writable (path : TagPath) : Prop where
  nonempty : path.segments ≠ []
  valid : ∀ segment ∈ path.segments, isSegment segment = true
  free : ∀ segment ∈ path.segments, isReserved segment = false
  short : ∀ segment ∈ path.segments, IsWord segment.toList → byteLength segment.toList ≤ Limits.wordBytes
  plain : ∀ segment ∈ path.segments.tail, Comparison.ofWord? segment = none
  separated : TagPath.separated path.segments = true

instance (path : TagPath) : Decidable path.Writable :=
  decidable_of_iff
    (path.segments ≠ [] ∧ (∀ segment ∈ path.segments, isSegment segment = true) ∧
      (∀ segment ∈ path.segments, isReserved segment = false) ∧
      (∀ segment ∈ path.segments, IsWord segment.toList → byteLength segment.toList ≤ Limits.wordBytes) ∧
      (∀ segment ∈ path.segments.tail, Comparison.ofWord? segment = none) ∧
      TagPath.separated path.segments = true)
    ⟨fun ⟨nonempty, valid, free, short, plain, separated⟩ => ⟨nonempty, valid, free, short, plain, separated⟩,
      fun ⟨nonempty, valid, free, short, plain, separated⟩ => ⟨nonempty, valid, free, short, plain, separated⟩⟩

structure Expr.Writable (expr : Expr) : Prop where
  ranked : expr.ranked = true
  paths : ∀ path ∈ expr.paths, path.Writable
  finite : ∀ operand ∈ expr.operands, Number.isFinite operand.2 = true

theorem Token.isSegment_ofSegment (segment : String) : (Token.ofSegment segment).IsSegment segment := by
  rw [ofSegment]
  split
  · exact .number segment _
  · exact .word segment

theorem isLexeme_segment {segment : String} (valid : isSegment segment = true) (free : isReserved segment = false)
    (short : IsWord segment.toList → byteLength segment.toList ≤ Limits.wordBytes) :
    IsLexeme segment.toList (.ofSegment segment) := by
  rcases (isSegment_iff segment).mp valid with word | numeral
  · have none : Keyword.ofWord? segment = none := by simpa [isReserved] using free
    rw [Token.ofSegment, word_not_numeral word]
    exact isLexeme_plain word (short word) none
  · have read := Number.literal?_of_isNumeral numeral
    rw [Token.ofSegment, read]
    exact isLexeme_literal read

namespace TagPath

theorem Writable.lexical {path : TagPath} (writable : path.Writable) : path.Lexical :=
  ⟨writable.nonempty, fun segment member =>
    isLexeme_segment (writable.valid segment member) (writable.free segment member) (writable.short segment member)⟩

theorem spells_tokens_append {front : List String} (rest : List String) (spelled : SpellsPath (tokens front) front)
    (plain : ∀ segment ∈ rest, Comparison.ofWord? segment = none) :
    SpellsPath (tokens (front ++ rest)) (front ++ rest) := by
  induction rest generalizing front with
  | nil => rwa [List.append_nil]
  | cons segment rest ih =>
    have next : SpellsPath (tokens (front ++ [segment])) (front ++ [segment]) := by
      have longer := spelled.next (Token.isSegment_ofSegment segment)
        ((Comparison.ofWord_eq_none_iff segment).mp (plain segment List.mem_cons_self))
      rw [tokens, List.flatMap_append]
      exact longer
    have whole := ih next fun other member => plain other (List.mem_cons_of_mem _ member)
    rwa [List.append_assoc] at whole

theorem Writable.spelled {path : TagPath} (writable : path.Writable) : SpellsPath (tokens path.segments) path.segments := by
  obtain ⟨segments⟩ := path
  cases segments with
  | nil => exact absurd rfl writable.nonempty
  | cons first rest =>
    have one : SpellsPath (tokens [first]) [first] := .first (Token.isSegment_ofSegment first)
    exact spells_tokens_append rest one writable.plain

end TagPath

namespace Expr

theorem Writable.legible {expr : Expr} (writable : expr.Writable) : expr.Legible where
  lexical path member := (writable.paths path member).lexical
  finite := writable.finite
  separated path member := (writable.paths path member).separated

theorem spells_regrouped {expr : Expr} (ranked : expr.ranked = true) (paths : ∀ path ∈ expr.paths, path.Writable) :
    Spells expr.stratum expr.tokens expr.regrouped := by
  induction expr with
  | predicate path => exact .predicate (paths path (List.mem_singleton_self path)).spelled
  | comparison key op operand =>
    exact .comparison (paths key (List.mem_singleton_self key)).spelled (.word op.word)
  | and left right first second =>
    simp only [Expr.ranked, Bool.and_eq_true, decide_eq_true_eq] at ranked
    obtain ⟨⟨⟨tight, tight'⟩, ranked⟩, ranked'⟩ := ranked
    have spelled := first ranked fun path member => paths path (List.mem_append_left _ member)
    have spelled' := second ranked' fun path member => paths path (List.mem_append_right _ member)
    exact (spelled.as_conjunction tight).conjoin (spelled'.as_conjunction tight')
  | or left right first second =>
    simp only [Expr.ranked, Bool.and_eq_true] at ranked
    have spelled := first ranked.1 fun path member => paths path (List.mem_append_left _ member)
    have spelled' := second ranked.2 fun path member => paths path (List.mem_append_right _ member)
    exact spelled.as_disjunction.disjoin spelled'.as_disjunction
  | not inner ih =>
    simp only [Expr.ranked, Bool.and_eq_true, decide_eq_true_eq] at ranked
    have spelled := ih ranked.2 paths
    rw [ranked.1] at spelled
    exact .not spelled
  | group inner ih => exact .group (ih ranked paths).as_disjunction

/-- The text of an expression that can be written is read back with its chains nested to the left,
    which means the same. -/
theorem text_reads_back_regrouped (limit : Nat) (expr : Expr) (writable : expr.Writable)
    (few : expr.tokens.length ≤ Limits.tokens) (nested : expr.nesting ≤ Limits.clampNesting limit) :
    ∃ lexed again, tokenize expr.text = .ok lexed ∧ lexed.tokens.map (·.value) = expr.tokens ++ [.eof] ∧
      Expr.ofTokens limit lexed.tokens = .ok again ∧ (∀ context, again.eval context = expr.eval context) ∧
      (expr.leftNested = true → again = expr) := by
  have ended : StopsNumber [] := ⟨rfl, nofun⟩
  obtain ⟨layout, fits, source, tokens⟩ := writable.legible.prints [] [] [] rfl ended splits_nil
  rw [List.nil_append, List.append_nil] at source
  rw [List.append_nil] at tokens
  have count : layout.items.length ≤ Limits.tokens := by rwa [← tokens, Layout.tokens, List.length_map] at few
  have lexing := (tokenize_ok_iff_layout expr.text _).mpr ⟨layout, fits, source, count, rfl⟩
  have spelled := (spells_regrouped writable.ranked writable.paths).as_disjunction
  rw [← tokens, ← fits.untilEof .start {}] at spelled
  have shallow : expr.regrouped.nesting ≤ Limits.clampNesting limit := by rwa [nesting_regrouped]
  have parsing : Expr.ofTokens limit (layout.lexed .start {}).tokens = .ok expr.regrouped :=
    (Reader.run_ok_iff _ _ _ _).mpr ⟨spelled, shallow⟩
  refine ⟨_, expr.regrouped, lexing, ?_, parsing, expr.eval_regrouped, regrouped_of_leftNested⟩
  rw [Layout.lexed, placedItems_values, ← tokens]
  rfl

theorem text_reads_back_regrouped_mixed :
    ∃ (expr : Expr) (lexed : Lexed) (again : Expr), expr.text = "not tag.a.10.-5.x or tag.gt and (tag.Not_1) and tag.b.2.ge.-1.5" ∧
      tokenize expr.text = .ok lexed ∧ Expr.ofTokens 1 lexed.tokens = .ok again ∧
      ∀ context, again.eval context = expr.eval context := by
  let bound := Number.Decimal.toFloat true ⟨15, -1⟩
  let expr : Expr := .or (.not (.predicate ⟨["a", "10", "-5", "x"]⟩))
    (.and (.predicate ⟨["gt"]⟩) (.and (.group (.predicate ⟨["Not_1"]⟩)) (.comparison ⟨["b", "2"]⟩ .atLeast bound)))
  have writable : expr.Writable := ⟨by decide, by decide +kernel, by decide +kernel⟩
  obtain ⟨lexed, again, lexing, -, parsing, same, -⟩ :=
    text_reads_back_regrouped 1 expr writable (by decide +kernel) (by decide)
  exact ⟨expr, lexed, again, by decide +kernel, lexing, parsing, same⟩

end Expr

end TagQuery
