import TagQuery.Proofs.ReaderExact

namespace TagQuery

namespace Cursor

variable {cursor : Cursor} {token : Spanned Token}

def rest (cursor : Cursor) : List (Spanned Token) := cursor.tokens.drop cursor.index

structure Passes (first last : Cursor) : Prop where
  tokens : last.tokens = first.tokens
  forward : first.index ≤ last.index
  unmarked : ∀ place, first.index ≤ place → place < last.index →
    ∃ token, first.tokens[place]? = some token ∧ token.value ≠ .eof

theorem Passes.refl (cursor : Cursor) : cursor.Passes cursor :=
  ⟨rfl, Nat.le_refl _, fun _ from_ before => absurd before (Nat.not_lt.mpr from_)⟩

theorem Passes.trans {first middle last : Cursor} (one : first.Passes middle) (other : middle.Passes last) :
    first.Passes last := by
  refine ⟨other.tokens.trans one.tokens, Nat.le_trans one.forward other.forward, fun place after before => ?_⟩
  rcases Nat.lt_or_ge place middle.index with early | late
  · exact one.unmarked place after early
  · rw [← one.tokens]
    exact other.unmarked place late before

theorem Passes.rest_length_le {first last : Cursor} (passes : first.Passes last) :
    last.rest.length ≤ first.rest.length := by
  have forward := passes.forward
  rw [rest, rest, passes.tokens, List.length_drop, List.length_drop]
  omega

theorem cases (cursor : Cursor) :
    cursor.token = .eof ∨
      ∃ token, cursor.current? = some token ∧ token.value ≠ .eof ∧ cursor.token = token.value ∧
        cursor.offset = token.offset := by
  unfold Cursor.token Cursor.offset
  cases current : cursor.current? with
  | none => exact Or.inl rfl
  | some token =>
    by_cases marker : token.value = .eof
    · exact Or.inl marker
    · exact Or.inr ⟨token, rfl, marker, rfl, rfl⟩

theorem isAtEnd_iff (cursor : Cursor) : cursor.isAtEnd = true ↔ cursor.token = .eof := by
  unfold Cursor.isAtEnd
  cases cursor.token <;> simp [Token.isEof]

theorem advance_index (current : cursor.current? = some token) :
    cursor.advance = { cursor with index := cursor.index + 1 } := if_pos (List.getElem?_eq_some_iff.mp current).1

theorem rest_of_current (current : cursor.current? = some token) : cursor.rest = token :: cursor.advance.rest := by
  obtain ⟨inside, same⟩ := List.getElem?_eq_some_iff.mp current
  rw [advance_index current, rest, List.drop_eq_getElem_cons inside, same]
  rfl

theorem rest_of_end (ended : cursor.current? = none) : cursor.rest = [] :=
  List.drop_of_length_le (List.getElem?_eq_none_iff.mp ended)

theorem passes_advance (inside : cursor.token ≠ .eof) : cursor.Passes cursor.advance := by
  rcases cursor.cases with atEnd | ⟨token, current, other, -, -⟩
  · exact absurd atEnd inside
  · rw [advance_index current]
    refine ⟨rfl, Nat.le_succ _, fun place after before => ⟨token, ?_, other⟩⟩
    obtain rfl : place = cursor.index := Nat.le_antisymm (Nat.le_of_lt_succ before) after
    exact current

theorem rest_advance_lt (inside : cursor.token ≠ .eof) : cursor.advance.rest.length < cursor.rest.length := by
  rcases cursor.cases with atEnd | ⟨token, current, -, -, -⟩
  · exact absurd atEnd inside
  · rw [rest_of_current current, List.length_cons]
    exact Nat.lt_succ_self _

theorem token_of_rest (few : cursor.rest.length ≤ 0) : cursor.token = .eof := by
  rcases cursor.cases with atEnd | ⟨token, current, -, -, -⟩
  · exact atEnd
  · rw [rest_of_current current] at few
    cases few

end Cursor

namespace Reader

variable {limit : Nat} {cursor : Cursor} {token : Spanned Token}

def runAt (limit : Nat) (reader : Reader) (cursor : Cursor) : Except ParseError Expr :=
  reader.run limit (Cursor.endOffset cursor.tokens) cursor.rest

theorem runAt_end (reader : Reader) (atEnd : cursor.token = .eof) :
    reader.runAt limit cursor = reader.finish cursor.offset := by
  unfold Cursor.token at atEnd
  unfold runAt Cursor.offset
  cases current : cursor.current? with
  | none =>
    rw [Cursor.rest_of_end current]
    rfl
  | some token =>
    rw [current] at atEnd
    have marker : token.value.isEof = true := congrArg Token.isEof atEnd
    rw [Cursor.rest_of_current current, run, if_pos marker]
    rfl

theorem runAt_current (reader : Reader) (current : cursor.current? = some token) (other : token.value ≠ .eof) :
    reader.runAt limit cursor =
      match reader.read limit token with
      | .ok next => next.runAt limit cursor.advance
      | .error error => .error error := by
  have unmarked : ¬ token.value.isEof = true := by
    cases value : token.value <;> first | exact absurd value other | nofun
  have tokens : cursor.advance.tokens = cursor.tokens := by
    rw [Cursor.advance_index current]
  rw [runAt, Cursor.rest_of_current current, run, if_neg unmarked]
  cases reader.read limit token with
  | error error => rfl
  | ok next =>
    dsimp only
    rw [runAt, tokens]

def takeSegment (reader : Reader) (path : List String) (segment : String) : Reader :=
  match (if path.isEmpty then none else Comparison.ofWord? segment) with
  | some op => { reader with phase := .comparison path op }
  | none => { reader with phase := .path (path ++ [segment]) }

variable (limit : Nat) (reader : Reader) (cursor : Cursor)

theorem runAt_tag :
    { reader with phase := .tag }.runAt limit cursor =
      if cursor.token = .dot then { reader with phase := .point [] }.runAt limit cursor.advance
      else .error (.unexpectedToken cursor.offset cursor.token.describe "'.'") := by
  rcases cursor.cases with atEnd | ⟨token, current, other, value, offset⟩
  · rw [runAt_end _ atEnd, atEnd]
    rfl
  · rw [runAt_current _ current other, value, offset]
    simp only [read]
    by_cases dot : token.value = .dot
    · rw [if_pos dot, if_pos dot]
    · rw [if_neg dot, if_neg dot]
      rfl

theorem runAt_point (path : List String) :
    { reader with phase := .point path }.runAt limit cursor =
      match cursor.token.segment? with
      | none => .error (.unexpectedToken cursor.offset cursor.token.describe "tag path segment")
      | some segment => (reader.takeSegment path segment).runAt limit cursor.advance := by
  rcases cursor.cases with atEnd | ⟨token, current, other, value, offset⟩
  · rw [runAt_end _ atEnd, atEnd]
    rfl
  · rw [runAt_current _ current other, value, offset]
    simp only [read, readSegment, takeSegment]
    cases token.value.segment? with
    | none => rfl
    | some segment =>
      dsimp only
      cases if path.isEmpty then none else Comparison.ofWord? segment <;> rfl

theorem runAt_path (path : List String) :
    { reader with phase := .path path }.runAt limit cursor =
      if cursor.token = .dot then { reader with phase := .point path }.runAt limit cursor.advance
      else { reader with phase := .closed (.predicate ⟨path⟩) }.runAt limit cursor := by
  rcases cursor.cases with atEnd | ⟨token, current, other, value, offset⟩
  · rw [runAt_end _ atEnd, runAt_end _ atEnd, atEnd]
    rfl
  · rw [runAt_current _ current other, runAt_current _ current other, value]
    simp only [read]
    by_cases dot : token.value = .dot
    · rw [if_pos dot, if_pos dot]
    · rw [if_neg dot, if_neg dot]
      rfl

theorem runAt_comparison (key : List String) (op : Comparison) :
    { reader with phase := .comparison key op }.runAt limit cursor =
      if cursor.token = .dot then { reader with phase := .comparisonPoint key op }.runAt limit cursor.advance
      else .error (.invalidOperand cursor.offset cursor.token.describe) := by
  rcases cursor.cases with atEnd | ⟨token, current, other, value, offset⟩
  · rw [runAt_end _ atEnd, atEnd]
    rfl
  · rw [runAt_current _ current other, value, offset]
    simp only [read]
    by_cases dot : token.value = .dot
    · rw [if_pos dot, if_pos dot]
    · rw [if_neg dot, if_neg dot]
      rfl

theorem runAt_comparisonPoint (key : List String) (op : Comparison) :
    { reader with phase := .comparisonPoint key op }.runAt limit cursor =
      match cursor.token with
      | .number _ operand => { reader with phase := .compared key op operand }.runAt limit cursor.advance
      | _ => .error (.invalidOperand cursor.offset cursor.token.describe) := by
  rcases cursor.cases with atEnd | ⟨token, current, other, value, offset⟩
  · rw [runAt_end _ atEnd, atEnd]
    rfl
  · rw [runAt_current _ current other, value, offset]
    simp only [read]
    cases shown : token.value <;> simp only [invalidOperand, shown]

theorem runAt_comparedPoint :
    { reader with phase := .comparedPoint }.runAt limit cursor =
      .error (.invalidOperand cursor.offset cursor.token.describe) := by
  rcases cursor.cases with atEnd | ⟨token, current, other, value, offset⟩
  · rw [runAt_end _ atEnd, atEnd]
    rfl
  · rw [runAt_current _ current other, value, offset]
    rfl

theorem runAt_compared (key : List String) (op : Comparison) (operand : Float) :
    { reader with phase := .compared key op operand }.runAt limit cursor =
      if cursor.token = .dot then { reader with phase := .comparedPoint }.runAt limit cursor.advance
      else { reader with phase := .closed (.comparison ⟨key⟩ op operand) }.runAt limit cursor := by
  rcases cursor.cases with atEnd | ⟨token, current, other, value, offset⟩
  · rw [runAt_end _ atEnd, runAt_end _ atEnd, atEnd]
    rfl
  · rw [runAt_current _ current other, runAt_current _ current other, value]
    simp only [read]
    by_cases dot : token.value = .dot
    · rw [if_pos dot, if_pos dot]
    · rw [if_neg dot, if_neg dot]
      rfl

theorem runAt_operand :
    { reader with phase := .operand }.runAt limit cursor =
      match cursor.token with
      | .keyword .not =>
        if reader.depth + 1 ≤ limit then
          { reader with level.nots := reader.level.nots + 1, phase := .operand }.runAt limit cursor.advance
        else .error (.nestingTooDeep cursor.offset (reader.depth + 1) limit)
      | .opening =>
        (Reader.mk {} (⟨reader.level, cursor.offset⟩ :: reader.outer) (.opened cursor.offset)).runAt limit cursor.advance
      | .word text =>
        if text = tagWord then { reader with phase := .tag }.runAt limit cursor.advance
        else .error (.unexpectedToken cursor.offset cursor.token.describe "'tag'")
      | .number .. | .dot => .error (.unexpectedToken cursor.offset cursor.token.describe "'tag'")
      | .closing =>
        if reader.outer.length = 0 then .error (.unbalancedParens cursor.offset)
        else .error (.unexpectedToken cursor.offset cursor.token.describe "expression")
      | .keyword _ | .eof => .error (.unexpectedToken cursor.offset cursor.token.describe "expression") := by
  rcases cursor.cases with atEnd | ⟨token, current, other, value, offset⟩
  · rw [runAt_end _ atEnd, atEnd]
    rfl
  · rw [runAt_current _ current other, value, offset]
    simp only [read, beginOperand]
    cases shown : token.value with
    | keyword joining =>
      cases joining with
      | not =>
        have deeper : Reader.depth ⟨{ reader.level with nots := reader.level.nots + 1 }, reader.outer, .operand⟩ =
            reader.depth + 1 := by
          rw [depth_eq, depth_eq]
          exact Nat.add_right_comm _ _ _
        simp only [checkDepth, deeper]
        by_cases fits : reader.depth + 1 ≤ limit
        · rw [if_pos fits, if_pos fits]
        · rw [if_neg fits, if_neg fits]
      | and | or => simp only [unexpected, shown]
    | word text =>
      by_cases tag : text = tagWord
      · simp only [if_pos tag]
      · simp only [if_neg tag, unexpected, shown]
    | closing =>
      simp only [List.isEmpty_iff_length_eq_zero]
      by_cases outermost : reader.outer.length = 0
      · simp only [if_pos outermost]
      · simp only [if_neg outermost, unexpected, shown]
    | number | dot | eof => simp only [unexpected, shown]
    | opening => rfl

variable {cursor}

theorem runAt_opened_closing (offset : Nat) (closes : cursor.token = .closing) :
    { reader with phase := .opened offset }.runAt limit cursor = .error (.emptyExpression offset) := by
  rcases cursor.cases with atEnd | ⟨token, current, other, value, -⟩
  · rw [closes] at atEnd
    cases atEnd
  · rw [value] at closes
    rw [runAt_current _ current other]
    simp only [read, if_pos closes]

/-- A group that holds something counts for the limit, and then it begins like any operand. -/
theorem runAt_opened (offset : Nat) (noClosing : cursor.token ≠ .closing) (inside : cursor.token ≠ .eof) :
    { reader with phase := .opened offset }.runAt limit cursor =
      if reader.depth ≤ limit then { reader with phase := .operand }.runAt limit cursor
      else .error (.nestingTooDeep offset reader.depth limit) := by
  rcases cursor.cases with atEnd | ⟨token, current, other, value, -⟩
  · exact absurd atEnd inside
  · rw [value] at noClosing
    rw [runAt_current _ current other, runAt_current _ current other]
    simp only [read, if_neg noClosing, checkDepth]
    have same : Reader.depth { reader with phase := .opened offset } = reader.depth := rfl
    rw [same]
    by_cases fits : reader.depth ≤ limit
    · rw [if_pos fits, if_pos fits]
      rfl
    · rw [if_neg fits, if_neg fits]
      rfl

theorem runAt_closed (cursor : Cursor) (operand : Expr) :
    { reader with phase := .closed operand }.runAt limit cursor =
      match cursor.token with
      | .keyword .and =>
        { reader with
          level := { ors := reader.level.ors, ands := some (reader.level.conjunction operand) }
          phase := .operand }.runAt limit cursor.advance
      | .keyword .or =>
        { reader with level := { ors := some (reader.level.value operand) }, phase := .operand }.runAt limit cursor.advance
      | .closing =>
        match reader.outer with
        | [] => .error (.unbalancedParens cursor.offset)
        | enclosing :: outer =>
          (Reader.mk enclosing.level outer (.closed (.group (reader.level.value operand)))).runAt limit cursor.advance
      | .eof =>
        match reader.outer with
        | [] => .ok (reader.level.value operand)
        | enclosing :: _ => .error (.unbalancedParens enclosing.offset)
      | other =>
        match reader.outer with
        | [] => .error (.trailingTokens cursor.offset other.describe)
        | _ :: _ => .error (.unexpectedToken cursor.offset other.describe "')'") := by
  rcases cursor.cases with atEnd | ⟨token, current, other, value, offset⟩
  · rw [runAt_end _ atEnd, atEnd]
    rfl
  · rw [runAt_current _ current other, value, offset]
    simp only [read, afterOperand]
    cases shown : token.value with
    | keyword joining => cases joining <;> cases outer : reader.outer <;> simp [unexpected, shown]
    | closing => cases outer : reader.outer <;> rfl
    | eof => exact absurd shown other
    | _ => cases outer : reader.outer <;> simp [unexpected, shown]

section Congruence

variable {limit : Nat} {first second : Reader} {left right : Expr}

theorem runAt_closed_of_value (outer : first.outer = second.outer)
    (value : first.level.value left = second.level.value right) (noAnd : cursor.token ≠ .keyword .and) :
    { first with phase := .closed left }.runAt limit cursor = { second with phase := .closed right }.runAt limit cursor := by
  rw [runAt_closed, runAt_closed, outer, value]
  split
  · rename_i joins
    exact absurd joins noAnd
  all_goals rfl

theorem runAt_closed_of_conjunction (outer : first.outer = second.outer) (ors : first.level.ors = second.level.ors)
    (conjunction : first.level.conjunction left = second.level.conjunction right) :
    { first with phase := .closed left }.runAt limit cursor = { second with phase := .closed right }.runAt limit cursor := by
  have value : first.level.value left = second.level.value right := by
    rw [Level.value, Level.value, ors, conjunction]
  rw [runAt_closed, runAt_closed, outer, ors, value, conjunction]

end Congruence

end Reader

end TagQuery
