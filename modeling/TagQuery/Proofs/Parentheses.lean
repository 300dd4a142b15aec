import TagQuery.Proofs.Regrouping

namespace TagQuery

namespace Expr

inductive Frame
  | andLeft (right : Expr)
  | andRight (left : Expr)
  | orLeft (right : Expr)
  | orRight (left : Expr)
  | not
  | group
deriving DecidableEq, Repr

namespace Frame

def fill : Frame → Expr → Expr
  | .andLeft right, part => .and part right
  | .andRight left, part => .and left part
  | .orLeft right, part => .or part right
  | .orRight left, part => .or left part
  | .not, part => .not part
  | .group, part => .group part

def before : Frame → Nat
  | .andLeft _ | .orLeft _ => 0
  | .andRight left | .orRight left => left.tokens.length + 1
  | .not | .group => 1

end Frame

def plug (frames : List Frame) (node : Expr) : Expr := frames.foldr Frame.fill node

def firstToken (frames : List Frame) : Nat := (frames.map Frame.before).sum

variable {node other : Expr}

theorem plug_cons (frame : Frame) (frames : List Frame) (node : Expr) :
    plug (frame :: frames) node = frame.fill (plug frames node) := rfl

theorem firstToken_cons (frame : Frame) (frames : List Frame) :
    firstToken (frame :: frames) = frame.before + firstToken frames := List.sum_cons

theorem stripGroups_plug (frames : List Frame) (same : other.stripGroups = node.stripGroups) :
    (plug frames other).stripGroups = (plug frames node).stripGroups := by
  induction frames with
  | nil => exact same
  | cons frame frames ih =>
    rw [plug_cons, plug_cons]
    cases frame with
    | andLeft | andRight | orLeft | orRight | not | group => simp only [Frame.fill, stripGroups, ih]

theorem eval_plug (frames : List Frame) (context : TagContext) (same : other.eval context = node.eval context) :
    (plug frames other).eval context = (plug frames node).eval context := by
  induction frames with
  | nil => exact same
  | cons frame frames ih =>
    rw [plug_cons, plug_cons]
    cases frame with
    | andLeft | andRight | orLeft | orRight | not | group => simp only [Frame.fill, eval, ih]

end Expr

namespace Spells

variable {stratum : Stratum} {tokens : List Token} {expr part node : Expr}

theorem as_level (spelled : Spells .operand tokens expr) (level : Stratum) : Spells level tokens expr := by
  cases level with
  | disjunction => exact spelled.as_disjunction
  | conjunction => exact .conjunct spelled
  | operand => exact spelled

def Surrounds (stratum level : Stratum) (front back : List Token) (frames : List Expr.Frame) : Prop :=
  ∀ spelling other, Spells level spelling other → Spells stratum (front ++ (spelling ++ back)) (Expr.plug frames other)

/-- The tokens of an expression are those of one of its parts and those around it, among which any
    other part of the same level can stand. -/
theorem enter {frame : Expr.Frame} (spelled : Spells stratum tokens (frame.fill part)) :
    ∃ front middle back level, tokens = front ++ (middle ++ back) ∧ front.length = frame.before ∧
      Spells level middle part ∧ Surrounds stratum level front back [frame] := by
  generalize whole : frame.fill part = expr at spelled
  induction spelled with
  | disjunct _ ih =>
    obtain ⟨front, middle, back, level, split, length, inner, around⟩ := ih whole
    exact ⟨front, middle, back, level, split, length, inner, fun _ _ other => .disjunct (around _ _ other)⟩
  | conjunct _ ih =>
    obtain ⟨front, middle, back, level, split, length, inner, around⟩ := ih whole
    exact ⟨front, middle, back, level, split, length, inner, fun _ _ other => .conjunct (around _ _ other)⟩
  | @or front back left right first second =>
    cases frame with
    | orLeft =>
      cases whole
      exact ⟨[], front, _, .disjunction, rfl, rfl, first, fun _ _ other => .or other second⟩
    | orRight =>
      cases whole
      refine ⟨front ++ [.keyword .or], back, [], .conjunction, by simp, ?_, second, fun spelling _ other => ?_⟩
      · rw [Expr.Frame.before, List.length_append, first.length_eq]; rfl
      · rw [List.append_nil, List.append_assoc]
        exact .or first other
    | andLeft | andRight | not | group => cases whole
  | @and front back left right first second =>
    cases frame with
    | andLeft =>
      cases whole
      exact ⟨[], front, _, .conjunction, rfl, rfl, first, fun _ _ other => .and other second⟩
    | andRight =>
      cases whole
      refine ⟨front ++ [.keyword .and], back, [], .operand, by simp, ?_, second, fun spelling _ other => ?_⟩
      · rw [Expr.Frame.before, List.length_append, first.length_eq]; rfl
      · rw [List.append_nil, List.append_assoc]
        exact .and first other
    | orLeft | orRight | not | group => cases whole
  | @not tokens inner negated =>
    cases frame with
    | not =>
      cases whole
      refine ⟨[.keyword .not], tokens, [], .operand, by simp, rfl, negated, fun spelling _ other => ?_⟩
      rw [List.append_nil]
      exact .not other
    | andLeft | andRight | orLeft | orRight | group => cases whole
  | @group tokens inner enclosed =>
    cases frame with
    | group =>
      cases whole
      exact ⟨[.opening], tokens, [.closing], .disjunction, rfl, rfl, enclosed, fun _ _ other => .group other⟩
    | andLeft | andRight | orLeft | orRight | not => cases whole
  | predicate | comparison => cases frame <;> cases whole

theorem reach {frames : List Expr.Frame} (spelled : Spells stratum tokens (Expr.plug frames node)) :
    ∃ front middle back level, tokens = front ++ (middle ++ back) ∧ front.length = Expr.firstToken frames ∧
      Spells level middle node ∧ Surrounds stratum level front back frames := by
  induction frames generalizing stratum tokens with
  | nil =>
    refine ⟨[], tokens, [], stratum, (List.append_nil _).symm, rfl, spelled, fun spelling _ other => ?_⟩
    rwa [List.append_nil]
  | cons frame frames ih =>
    obtain ⟨front, middle, back, level, rfl, length, part, around⟩ := spelled.enter
    obtain ⟨front', middle', back', level', rfl, length', inner, around'⟩ := ih part
    refine ⟨front ++ front', middle', back' ++ back, level', by simp, ?_, inner, fun spelling other filling => ?_⟩
    · rw [List.length_append, length, length', Expr.firstToken_cons]
    · have whole := around _ _ (around' spelling other filling)
      rw [List.append_assoc, List.append_assoc] at whole
      rwa [List.append_assoc]

end Spells

namespace Token

variable {tokens first second rest : List (Spanned Token)} {front middle back : List Token}

theorem exists_of_untilEof (split : untilEof tokens = front ++ (middle ++ back)) :
    ∃ first second rest, tokens = first ++ (second ++ rest) ∧ first.map (·.value) = front ∧
      second.map (·.value) = middle ∧ untilEof rest = back ∧
      (∀ token ∈ first, token.value.isEof = false) ∧ ∀ token ∈ second, token.value.isEof = false := by
  have whole := split
  rw [untilEof_eq] at split
  obtain ⟨first, others, taken, rfl, values⟩ := List.map_eq_append_iff.mp split
  obtain ⟨second, third, rfl, rfl, -⟩ := List.map_eq_append_iff.mp values
  have free : ∀ token ∈ first ++ (second ++ third), token.value.isEof = false := by
    intro token member
    rw [← taken] at member
    simpa using List.mem_takeWhile_imp member
  have ahead (token) (member : token ∈ first) := free token (List.mem_append_left _ member)
  have inside (token) (member : token ∈ second) := free token (List.mem_append_right _ (List.mem_append_left _ member))
  have same : tokens = first ++ (second ++ (third ++ tokens.dropWhile fun token => !token.value.isEof)) := by
    rw [← List.append_assoc second, ← List.append_assoc first, ← taken, List.takeWhile_append_dropWhile]
  refine ⟨first, second, _, same, rfl, rfl, ?_, ahead, inside⟩
  rw [same, untilEof_append ahead, untilEof_append inside] at whole
  exact List.append_cancel_left (List.append_cancel_left whole)

/-- Tokens with parentheses around `count` of them, of which the first is at `start`. -/
def enclose (start count : Nat) (opening closing : Span) (tokens : List (Spanned Token)) : List (Spanned Token) :=
  tokens.take start ++ ⟨.opening, opening⟩ ::
    ((tokens.drop start).take count ++ ⟨.closing, closing⟩ :: tokens.drop (start + count))

theorem enclose_append (opening closing : Span) :
    enclose first.length second.length opening closing (first ++ (second ++ rest)) =
      first ++ ⟨.opening, opening⟩ :: (second ++ ⟨.closing, closing⟩ :: rest) := by
  have skip : (first ++ (second ++ rest)).drop (first.length + second.length) = rest := by
    rw [← List.append_assoc, ← List.length_append, List.drop_left]
  rw [enclose, skip, List.take_left, List.drop_left, List.take_left]

end Token

/-- Parentheses around the tokens of one node of an expression are read as a group in its place, unless
    they nest too deep, and do not change the meaning. -/
theorem parentheses_read_as_group (limit : Nat) (tokens : List (Spanned Token)) (frames : List Expr.Frame)
    (node : Expr) (opening closing : Span) (read : Expr.ofTokens limit tokens = .ok (.plug frames node)) :
    (∃ level, Spells level (((tokens.drop (Expr.firstToken frames)).take node.tokens.length).map (·.value)) node) ∧
    (∀ expr, Expr.ofTokens limit
        (Token.enclose (Expr.firstToken frames) node.tokens.length opening closing tokens) = .ok expr ↔
      expr = .plug frames (.group node) ∧ expr.nesting ≤ Limits.clampNesting limit) ∧
    (Expr.plug frames (.group node)).stripGroups = (Expr.plug frames node).stripGroups ∧
    ∀ context, (Expr.plug frames (.group node)).eval context = (Expr.plug frames node).eval context := by
  obtain ⟨spelled, -⟩ := (Reader.run_ok_iff _ _ _ _).mp read
  obtain ⟨front, middle, back, level, split, start, inner, around⟩ := spelled.reach
  obtain ⟨first, second, rest, rfl, rfl, rfl, rfl, ahead, inside⟩ := Token.exists_of_untilEof split
  have count := inner.length_eq
  rw [List.length_map] at start count
  refine ⟨⟨level, ?_⟩, fun expr => ?_, Expr.stripGroups_plug frames rfl, fun context => Expr.eval_plug frames context rfl⟩
  · rwa [← start, ← count, List.drop_left, List.take_left]
  · -- a group is an operand, so it can stand wherever the node stood
    have grouped := around _ _ ((Spells.group inner.as_disjunction).as_level level)
    have values : Token.untilEof (first ++ ⟨.opening, opening⟩ :: (second ++ ⟨.closing, closing⟩ :: rest)) =
        first.map (·.value) ++
          (.opening :: (second.map (·.value) ++ [.closing]) ++ Token.untilEof rest) := by
      rw [Token.untilEof_append ahead, Token.untilEof_cons rfl, Token.untilEof_append inside, Token.untilEof_cons rfl,
        List.cons_append, List.append_assoc]
      rfl
    rw [← start, ← count, Token.enclose_append, Expr.ofTokens, Reader.run_ok_iff, values]
    refine and_congr_left fun _ => ⟨fun other => other.unique grouped, fun same => ?_⟩
    rw [same]
    exact grouped

theorem parentheses_read_as_group_not :
    ∃ lexed, tokenize "tag.a or tag.b and not tag.c" = .ok lexed ∧ ∀ opening closing,
      Expr.ofTokens 2 (Token.enclose 8 4 opening closing lexed.tokens) =
        .ok (.or (.predicate ⟨["a"]⟩) (.and (.predicate ⟨["b"]⟩) (.group (.not (.predicate ⟨["c"]⟩))))) := by
  let frames : List Expr.Frame := [.orRight (.predicate ⟨["a"]⟩), .andRight (.predicate ⟨["b"]⟩)]
  let node : Expr := .not (.predicate ⟨["c"]⟩)
  have compiled : Filter.compile 2 "tag.a or tag.b and not tag.c" =
      .ok (.ofExpr "tag.a or tag.b and not tag.c" (.plug frames node)) := by
    decide +kernel
  obtain ⟨lexed, expr, lexing, parsing, -, same⟩ := (Filter.compile_ok_iff _ _ _).mp compiled
  obtain rfl : Expr.plug frames node = expr := congrArg Filter.expr same
  refine ⟨lexed, lexing, fun opening closing => ?_⟩
  have reads := (parentheses_read_as_group 2 lexed.tokens frames node opening closing parsing).2.1
  exact (reads _).mpr ⟨rfl, by decide⟩

end TagQuery
