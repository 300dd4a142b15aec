import TagQuery.Proofs.Numerals
import TagQuery.Proofs.ReaderSound

namespace TagQuery

namespace Reader

def readAll (limit : Nat) : Reader → List (Spanned Token) → Except ParseError Reader
  | reader, [] => .ok reader
  | reader, token :: rest =>
    match reader.read limit token with
    | .ok next => next.readAll limit rest
    | .error error => .error error

theorem readAll_cons {limit : Nat} {reader next : Reader} {token : Spanned Token} {rest : List (Spanned Token)}
    (step : reader.read limit token = .ok next) :
    reader.readAll limit (token :: rest) = next.readAll limit rest := by
  simp [readAll, step]

theorem readAll_append {limit : Nat} {reader next : Reader} {front back : List (Spanned Token)}
    (read : reader.readAll limit front = .ok next) :
    reader.readAll limit (front ++ back) = next.readAll limit back := by
  induction front generalizing reader with
  | nil => cases read; rfl
  | cons token front ih =>
    cases step : reader.read limit token with
    | error error => simp [readAll, step] at read
    | ok middle =>
      rw [readAll_cons step] at read
      rw [List.cons_append, readAll_cons step, ih read]

theorem readAll_append_error {limit : Nat} {reader : Reader} {front back : List (Spanned Token)} {error : ParseError}
    (stopped : reader.readAll limit front = .error error) :
    reader.readAll limit (front ++ back) = .error error := by
  induction front generalizing reader with
  | nil => cases stopped
  | cons token front ih =>
    cases step : reader.read limit token with
    | error first => simpa [readAll, step] using stopped
    | ok middle =>
      rw [readAll_cons step] at stopped
      rw [List.cons_append, readAll_cons step, ih stopped]

theorem run_eq_readAll (limit endOffset : Nat) (reader : Reader) (tokens : List (Spanned Token)) :
    ∃ offset, reader.run limit endOffset tokens =
      match reader.readAll limit (tokens.takeWhile fun token => !token.value.isEof) with
      | .ok last => last.finish offset
      | .error error => .error error := by
  induction tokens generalizing reader with
  | nil => exact ⟨endOffset, rfl⟩
  | cons token rest ih =>
    by_cases marker : token.value.isEof = true
    · exact ⟨token.offset, by simp [run, readAll, marker]⟩
    · cases step : reader.read limit token with
      | error error => exact ⟨endOffset, by simp [run, readAll, marker, step]⟩
      | ok next =>
        obtain ⟨offset, same⟩ := ih next
        exact ⟨offset, by simpa [run, readAll, marker, step] using same⟩

theorem Reads.readAll {limit : Nat} {reader last : Reader} {front : List Token} {tokens : List (Spanned Token)}
    (read : reader.Reads front) (all : reader.readAll limit tokens = .ok last) :
    last.Reads (front ++ tokens.map (·.value)) := by
  induction tokens generalizing reader front with
  | nil => cases all; simpa using read
  | cons token rest ih =>
    cases step : reader.read limit token with
    | error error => simp [Reader.readAll, step] at all
    | ok next =>
      rw [readAll_cons step] at all
      simpa using ih (read.read step) all

def operand? (reader : Reader) : Option Expr :=
  match reader.phase with
  | .path path => some (.predicate ⟨path⟩)
  | .compared key op operand => some (.comparison ⟨key⟩ op operand)
  | .closed group => some group
  | _ => none

theorem read_after {limit : Nat} {reader : Reader} {operand : Expr} {token : Spanned Token}
    (complete : reader.operand? = some operand) (noPoint : token.value ≠ .dot) :
    reader.read limit token = reader.afterOperand operand token := by
  unfold operand? at complete
  unfold read
  split at complete <;> rename_i phase
  all_goals first | cases complete; simp [phase, noPoint] | cases complete

theorem finish_after {reader : Reader} {operand : Expr} (offset : Nat) (complete : reader.operand? = some operand) :
    reader.finish offset = reader.complete operand := by
  unfold operand? at complete
  unfold finish
  split at complete <;> rename_i phase
  all_goals first | cases complete; simp [phase] | cases complete

def around : List Enclosing → Nat
  | [] => 0
  | enclosing :: outer => enclosing.level.nots + 1 + around outer

theorem depth_eq (reader : Reader) : reader.depth = reader.level.nots + around reader.outer := by
  have fold (outer : List Enclosing) (start : Nat) :
      outer.foldl (fun depth enclosing => depth + enclosing.level.nots + 1) start = start + around outer := by
    induction outer generalizing start with
    | nil => rfl
    | cons enclosing outer ih =>
      simp only [List.foldl_cons, ih, around]
      omega
  exact fold reader.outer reader.level.nots

def Ready (limit : Nat) (reader : Reader) : Prop :=
  match reader.phase with
  | .start | .operand => reader.depth ≤ limit
  | .opened _ => reader.depth ≤ limit + 1
  | _ => False

def Ends (limit : Nat) (fits : Prop) (good : Reader → Prop) : Except ParseError Reader → Prop
  | .ok last => fits ∧ good last
  | .error error => ¬ fits ∧ ∃ offset, error = .nestingTooDeep offset (limit + 1) limit

theorem Ends.weaken {limit : Nat} {fits fits' : Prop} {good good' : Reader → Prop} {result : Except ParseError Reader}
    (ended : Ends limit fits good result) (same : fits ↔ fits') (better : ∀ last, good last → good' last) :
    Ends limit fits' good' result := by
  cases result with
  | ok last => exact ⟨same.mp ended.1, better last ended.2⟩
  | error error => exact ⟨fun fit => ended.1 (same.mpr fit), ended.2⟩

theorem Ends.append {limit : Nat} {first : Prop} {middle good : Reader → Prop} {reader : Reader}
    {front back : List (Spanned Token)} (ended : Ends limit first middle (reader.readAll limit front)) (second : Prop)
    (continued : ∀ last, first → middle last → Ends limit second good (last.readAll limit back)) :
    Ends limit (first ∧ second) good (reader.readAll limit (front ++ back)) := by
  cases read : reader.readAll limit front with
  | error error =>
    rw [readAll_append_error read]
    rw [read] at ended
    exact ⟨fun both => ended.1 both.1, ended.2⟩
  | ok last =>
    rw [readAll_append read]
    rw [read] at ended
    have rest := continued last ended.1 ended.2
    cases result : last.readAll limit back with
    | ok final =>
      rw [result] at rest
      exact ⟨⟨ended.1, rest.1⟩, rest.2⟩
    | error error =>
      rw [result] at rest
      exact ⟨fun both => rest.1 both.2, rest.2⟩

theorem Ready.read {limit : Nat} {reader : Reader} {token : Spanned Token} (ready : reader.Ready limit)
    (opens : token.value ≠ .closing) :
    (reader.depth ≤ limit ∧ reader.read limit token = reader.beginOperand limit token) ∨
      (limit < reader.depth ∧
        ∃ offset, reader.read limit token = .error (.nestingTooDeep offset (limit + 1) limit)) := by
  unfold Ready at ready
  unfold Reader.read
  split at ready <;> rename_i phase
  · exact Or.inl ⟨ready, by simp [phase]⟩
  · exact Or.inl ⟨ready, by simp [phase]⟩
  · rename_i offset
    by_cases fits : reader.depth ≤ limit
    · refine Or.inl ⟨fits, ?_⟩
      simp only [phase, opens, if_false, checkDepth, fits, if_true]
      rfl
    · have deep : reader.depth = limit + 1 := by omega
      refine Or.inr ⟨by omega, offset, ?_⟩
      simp only [phase, opens, if_false, checkDepth, fits]
      rw [deep]
      rfl
  · exact ready.elim

theorem readAll_path {limit : Nat} {path : List String} {spelling : List Token} (spelled : SpellsPath spelling path)
    (reader : Reader) (tokens : List (Spanned Token)) (values : tokens.map (·.value) = spelling) :
    { reader with phase := .tag }.readAll limit tokens = .ok { reader with phase := .path path } := by
  induction spelled generalizing tokens with
  | first spelled =>
    obtain ⟨dot, rest, rfl, isDot, afterDot⟩ := List.map_eq_cons_iff.mp values
    obtain ⟨token, rest, rfl, rfl, afterToken⟩ := List.map_eq_cons_iff.mp afterDot
    obtain rfl := List.map_eq_nil_iff.mp afterToken
    simp [readAll, read, readSegment, isDot, Token.isSegment_iff_some.mp spelled]
  | @next front path segmentToken segment spelling spelled plain ih =>
    obtain ⟨before, after, rfl, frontValues, backValues⟩ := List.map_eq_append_iff.mp values
    obtain ⟨dot, rest, rfl, isDot, afterDot⟩ := List.map_eq_cons_iff.mp backValues
    obtain ⟨token, rest, rfl, rfl, afterToken⟩ := List.map_eq_cons_iff.mp afterDot
    obtain rfl := List.map_eq_nil_iff.mp afterToken
    rw [readAll_append (ih before frontValues)]
    have nonempty : path.isEmpty = false := by simpa using spelling.path_ne_nil
    simp [readAll, read, readSegment, isDot, Token.isSegment_iff_some.mp spelled,
      (Comparison.ofWord_eq_none_iff segment).mpr plain, nonempty]

theorem readAll_comparison {limit : Nat} {key : List String} {word : Token} {op : Comparison} {text : String}
    {operand : Float} (nonempty : key ≠ []) (named : word.IsSegment op.word) (reader : Reader)
    (tokens : List (Spanned Token)) (values : tokens.map (·.value) = [.dot, word, .dot, .number text operand]) :
    { reader with phase := .path key }.readAll limit tokens =
      .ok { reader with phase := .compared key op operand } := by
  obtain ⟨dot, rest, rfl, isDot, afterDot⟩ := List.map_eq_cons_iff.mp values
  obtain ⟨name, rest, rfl, rfl, afterName⟩ := List.map_eq_cons_iff.mp afterDot
  obtain ⟨point, rest, rfl, isPoint, afterPoint⟩ := List.map_eq_cons_iff.mp afterName
  obtain ⟨number, rest, rfl, isNumber, afterNumber⟩ := List.map_eq_cons_iff.mp afterPoint
  obtain rfl := List.map_eq_nil_iff.mp afterNumber
  have keyed : key.isEmpty = false := by simpa using nonempty
  simp [readAll, read, readSegment, isDot, isPoint, isNumber, Token.isSegment_iff_some.mp named, op.ofWord_word, keyed]

/-- What reading an expression of a stratum leaves behind: the operand it ends with and, in the level,
    the chains and negations that make up the expression with it. -/
def Holds (before : Reader) (expr : Expr) (last : Reader) : Stratum → Prop
  | .operand => last.outer = before.outer ∧ last.level.ors = before.level.ors ∧
      last.level.ands = before.level.ands ∧ ∃ inner, last.operand? = some inner ∧
        Level.negate last.level.nots inner = Level.negate before.level.nots expr
  | .conjunction => last.outer = before.outer ∧ last.level.ors = before.level.ors ∧
      ∃ inner, last.operand? = some inner ∧ last.level.conjunction inner = expr
  | .disjunction => last.outer = before.outer ∧
      ∃ inner, last.operand? = some inner ∧ last.level.value inner = expr

def Fresh (reader : Reader) : Stratum → Prop
  | .operand => True
  | .conjunction => reader.level.ands = none ∧ reader.level.nots = 0
  | .disjunction => reader.level = {}

theorem Ready.ends {limit : Nat} {fits : Prop} {good : Reader → Prop} {reader : Reader} {token : Spanned Token}
    {rest : List (Spanned Token)} (ready : reader.Ready limit) (opens : token.value ≠ .closing)
    (deep : fits → reader.depth ≤ limit)
    (continued : reader.depth ≤ limit → Ends limit fits good
      (match reader.beginOperand limit token with
        | .ok next => next.readAll limit rest
        | .error error => .error error)) :
    Ends limit fits good (reader.readAll limit (token :: rest)) := by
  rcases ready.read opens with ⟨within, step⟩ | ⟨past, offset, step⟩
  · simpa [readAll, step] using continued within
  · simp only [readAll, step]
    exact ⟨fun fit => absurd (deep fit) (by omega), offset, rfl⟩

theorem Holds.disjunct {before last : Reader} {expr : Expr} (fresh : before.Fresh .disjunction)
    (holds : Holds before expr last .conjunction) : Holds before expr last .disjunction := by
  obtain ⟨outer, ors, inner, complete, joined⟩ := holds
  refine ⟨outer, inner, complete, ?_⟩
  rw [show before.level = {} from fresh] at ors
  simp [Level.value, Level.join, ors, joined]

theorem Holds.conjunct {before last : Reader} {expr : Expr} (fresh : before.Fresh .conjunction)
    (holds : Holds before expr last .operand) : Holds before expr last .conjunction := by
  obtain ⟨outer, ors, ands, inner, complete, negated⟩ := holds
  obtain ⟨noAnds, noNots⟩ := fresh
  refine ⟨outer, ors, inner, complete, ?_⟩
  rw [noAnds] at ands
  rw [noNots] at negated
  simpa [Level.conjunction, Level.join, ands, Level.negate] using negated

theorem Holds.read_or {limit : Nat} {before last : Reader} {left : Expr} {token : Spanned Token}
    (holds : Holds before left last .disjunction) (fresh : before.Fresh .disjunction)
    (joining : token.value = .keyword .or) :
    ∃ next, last.read limit token = .ok next ∧ next.depth = before.depth ∧ next.phase = .operand ∧
      next.outer = before.outer ∧ next.level = { ors := some left } := by
  obtain ⟨outer, inner, complete, value⟩ := holds
  refine ⟨{ last with level := { ors := some left }, phase := .operand }, ?_, ?_, rfl, outer, rfl⟩
  · rw [read_after complete (by simp [joining])]
    simp [afterOperand, joining, value]
  · rw [depth_eq, depth_eq, outer, show before.level = {} from fresh]

theorem Holds.or {before next last : Reader} {left right : Expr} (outer : next.outer = before.outer)
    (level : next.level = { ors := some left }) (holds : Holds next right last .conjunction) :
    Holds before (.or left right) last .disjunction := by
  obtain ⟨kept, ors, inner, complete, joined⟩ := holds
  refine ⟨kept.trans outer, inner, complete, ?_⟩
  rw [level] at ors
  simp [Level.value, Level.join, ors, joined]

theorem Holds.read_and {limit : Nat} {before last : Reader} {left : Expr} {token : Spanned Token}
    (holds : Holds before left last .conjunction) (fresh : before.Fresh .conjunction)
    (joining : token.value = .keyword .and) :
    ∃ next, last.read limit token = .ok next ∧ next.depth = before.depth ∧ next.phase = .operand ∧
      next.outer = before.outer ∧ next.level = { ors := before.level.ors, ands := some left } := by
  obtain ⟨outer, ors, inner, complete, value⟩ := holds
  refine ⟨{ last with level := { last.level with ands := some left, nots := 0 }, phase := .operand },
    ?_, ?_, rfl, outer, ?_⟩
  · rw [read_after complete (by simp [joining])]
    simp [afterOperand, joining, value]
  · rw [depth_eq, depth_eq, outer, fresh.2]
  · simp [ors]

theorem Holds.and {before next last : Reader} {left right : Expr} (outer : next.outer = before.outer)
    (level : next.level = { ors := before.level.ors, ands := some left })
    (holds : Holds next right last .operand) : Holds before (.and left right) last .conjunction := by
  obtain ⟨kept, ors, ands, inner, complete, negated⟩ := holds
  rw [level] at ors ands negated
  refine ⟨kept.trans outer, ors, inner, complete, ?_⟩
  simpa [Level.conjunction, Level.join, ands, Level.negate] using negated

theorem Holds.read_closing {limit : Nat} {before opened last : Reader} {inner : Expr} {token : Spanned Token}
    {offset : Nat} (holds : Holds opened inner last .disjunction)
    (around : opened.outer = ⟨before.level, offset⟩ :: before.outer) (closing : token.value = .closing) :
    ∃ next, last.read limit token = .ok next ∧ Holds before (.group inner) next .operand := by
  obtain ⟨outer, operand, complete, value⟩ := holds
  refine ⟨⟨before.level, before.outer, .closed (.group inner)⟩, ?_, rfl, rfl, rfl, _, rfl, rfl⟩
  rw [read_after complete (by simp [closing])]
  simp [afterOperand, closing, outer, around, value]

theorem Ready.ends_not {limit : Nat} {reader : Reader} {inner : Expr} {token : Spanned Token}
    {rest : List (Spanned Token)} (ready : reader.Ready limit) (negation : token.value = .keyword .not)
    (continued : ∀ next : Reader, next.Ready limit → Ends limit (next.depth + inner.nesting ≤ limit)
      (fun last => Holds next inner last .operand) (next.readAll limit rest)) :
    Ends limit (reader.depth + (Expr.not inner).nesting ≤ limit)
      (fun last => Holds reader (.not inner) last .operand) (reader.readAll limit (token :: rest)) := by
  let next : Reader := { reader with level.nots := reader.level.nots + 1, phase := .operand }
  have deeper : next.depth = reader.depth + 1 := by
    rw [next.depth_eq, reader.depth_eq]
    simp only [next]
    omega
  have nested : (Expr.not inner).nesting = 1 + inner.nesting := rfl
  refine ready.ends (by simp [negation]) (by omega) fun _ => ?_
  have step : reader.beginOperand limit token = next.checkDepth limit token.offset := by
    simp only [beginOperand, negation, next]
  rw [step, checkDepth]
  by_cases fits : next.depth ≤ limit
  · rw [if_pos fits]
    refine (continued next fits).weaken (by omega) fun last holds => ?_
    obtain ⟨outer, ors, ands, operand, complete, negated⟩ := holds
    exact ⟨outer, ors, ands, operand, complete, by rw [negated, Level.negate_not]⟩
  · rw [if_neg fits]
    exact ⟨by omega, token.offset, by rw [show next.depth = limit + 1 by omega]⟩

theorem Ready.ends_opening {limit : Nat} {reader : Reader} {fits : Prop} {good : Reader → Prop}
    {token : Spanned Token} {rest : List (Spanned Token)} (ready : reader.Ready limit)
    (opening : token.value = .opening) (deep : fits → reader.depth ≤ limit)
    (continued : ∀ next : Reader, next.Ready limit → next.depth = reader.depth + 1 → next.level = {} →
      next.outer = ⟨reader.level, token.offset⟩ :: reader.outer → Ends limit fits good (next.readAll limit rest)) :
    Ends limit fits good (reader.readAll limit (token :: rest)) := by
  let next : Reader :=
    { level := {}, outer := ⟨reader.level, token.offset⟩ :: reader.outer, phase := .opened token.offset }
  have deeper : next.depth = reader.depth + 1 := by
    rw [next.depth_eq, reader.depth_eq]
    simp only [next, around]
    omega
  refine ready.ends (by simp [opening]) deep fun within => ?_
  have step : reader.beginOperand limit token = .ok next := by
    simp only [beginOperand, opening, next]
  rw [step]
  have pending : next.depth ≤ limit + 1 := by omega
  exact continued next pending deeper rfl rfl

theorem Ready.ends_tag {limit : Nat} {reader : Reader} {expr : Expr} {token : Spanned Token}
    {rest : List (Spanned Token)} (phase : Phase) (ready : reader.Ready limit) (tag : token.value = .word tagWord)
    (leaf : expr.nesting = 0) (complete : { reader with phase }.operand? = some expr)
    (read : { reader with phase := .tag }.readAll limit rest = .ok { reader with phase }) :
    Ends limit (reader.depth + expr.nesting ≤ limit) (fun last => Holds reader expr last .operand)
      (reader.readAll limit (token :: rest)) := by
  refine ready.ends (by simp [tag]) (by omega) fun within => ?_
  have step : reader.beginOperand limit token = .ok { reader with phase := .tag } := by
    simp [beginOperand, tag]
  rw [step]
  show Ends limit _ _ ({ reader with phase := .tag }.readAll limit rest)
  rw [read]
  exact ⟨by omega, rfl, rfl, rfl, expr, complete, rfl⟩

/-- Reading what spells an expression succeeds just when its nesting stays within the limit, and then
    the reader holds that expression; otherwise it stops at the first level past the limit. -/
theorem ends_of_spells {limit : Nat} {stratum : Stratum} {spelling : List Token} {expr : Expr}
    (spelled : Spells stratum spelling expr) (reader : Reader) (tokens : List (Spanned Token))
    (values : tokens.map (·.value) = spelling) (ready : reader.Ready limit) (fresh : reader.Fresh stratum) :
    Ends limit (reader.depth + expr.nesting ≤ limit) (fun last => Holds reader expr last stratum)
      (reader.readAll limit tokens) := by
  -- along the derivation; `Fresh` keeps the operands of a chain apart from a chain of the same level
  induction spelled generalizing reader tokens with
  | disjunct _ ih =>
    have conjunction : reader.Fresh .conjunction := by
      rw [Fresh, show reader.level = {} from fresh]
      exact ⟨rfl, rfl⟩
    exact (ih reader tokens values ready conjunction).weaken Iff.rfl fun _ holds => holds.disjunct fresh
  | conjunct _ ih =>
    exact (ih reader tokens values ready trivial).weaken Iff.rfl fun _ holds => holds.conjunct fresh
  | @or front back left right _ _ ihLeft ihRight =>
    obtain ⟨first, rest, rfl, firstValues, restValues⟩ := List.map_eq_append_iff.mp values
    obtain ⟨joining, second, rfl, isOr, secondValues⟩ := List.map_eq_cons_iff.mp restValues
    have nested : (Expr.or left right).nesting = max left.nesting right.nesting := rfl
    refine ((ihLeft reader first firstValues ready fresh).append (reader.depth + right.nesting ≤ limit)
      fun last fits holds => ?_).weaken (by omega) fun _ held => held
    obtain ⟨next, step, depth, phase, outer, level⟩ := holds.read_or fresh isOr
    rw [readAll_cons step]
    have ready : next.Ready limit := by simp only [Ready, phase]; omega
    have fresh : next.Fresh .conjunction := by simp [Fresh, level]
    exact (ihRight next second secondValues ready fresh).weaken (by rw [depth]) fun _ held => held.or outer level
  | @and front back left right _ _ ihLeft ihRight =>
    obtain ⟨first, rest, rfl, firstValues, restValues⟩ := List.map_eq_append_iff.mp values
    obtain ⟨joining, second, rfl, isAnd, secondValues⟩ := List.map_eq_cons_iff.mp restValues
    have nested : (Expr.and left right).nesting = max left.nesting right.nesting := rfl
    refine ((ihLeft reader first firstValues ready fresh).append (reader.depth + right.nesting ≤ limit)
      fun last fits holds => ?_).weaken (by omega) fun _ held => held
    obtain ⟨next, step, depth, phase, outer, level⟩ := holds.read_and fresh isAnd
    rw [readAll_cons step]
    have ready : next.Ready limit := by simp only [Ready, phase]; omega
    exact (ihRight next second secondValues ready trivial).weaken (by rw [depth]) fun _ held => held.and outer level
  | not _ ih =>
    obtain ⟨negation, rest, rfl, isNot, restValues⟩ := List.map_eq_cons_iff.mp values
    exact ready.ends_not isNot fun next ready => ih next rest restValues ready trivial
  | @group spelling inner _ ih =>
    obtain ⟨opening, rest, rfl, isOpening, restValues⟩ := List.map_eq_cons_iff.mp values
    obtain ⟨body, ending, rfl, bodyValues, endValues⟩ := List.map_eq_append_iff.mp restValues
    obtain ⟨closing, none, rfl, isClosing, noValues⟩ := List.map_eq_cons_iff.mp endValues
    obtain rfl := List.map_eq_nil_iff.mp noValues
    have nested : (Expr.group inner).nesting = 1 + inner.nesting := rfl
    refine ready.ends_opening isOpening (by omega) fun next ready depth level outer => ?_
    refine ((ih next body bodyValues ready level).append True
      fun last _ holds => ?_).weaken (by rw [and_true]; omega) fun _ held => held
    obtain ⟨final, step, held⟩ := holds.read_closing outer isClosing
    rw [readAll_cons step]
    exact ⟨trivial, held⟩
  | predicate spelled =>
    obtain ⟨tag, rest, rfl, isTag, restValues⟩ := List.map_eq_cons_iff.mp values
    exact ready.ends_tag (.path _) isTag rfl rfl (readAll_path spelled reader rest restValues)
  | @comparison _ key _ op _ operand spelled named =>
    obtain ⟨tag, rest, rfl, isTag, restValues⟩ := List.map_eq_cons_iff.mp values
    obtain ⟨path, ending, rfl, pathValues, endValues⟩ := List.map_eq_append_iff.mp restValues
    refine ready.ends_tag (.compared key op operand) isTag rfl rfl ?_
    rw [readAll_append (readAll_path spelled reader path pathValues)]
    exact readAll_comparison spelled.path_ne_nil named reader ending endValues

theorem readAll_start (limit : Nat) {tokens : List (Spanned Token)} {expr : Expr}
    (spelled : Spells .disjunction (tokens.map (·.value)) expr) :
    Ends limit (expr.nesting ≤ limit) (fun last => last.outer = [] ∧
      ∃ operand, last.operand? = some operand ∧ last.level.value operand = expr) (readAll limit {} tokens) := by
  have ready : Ready limit {} := Nat.zero_le limit
  have start : depth {} = 0 := rfl
  exact (ends_of_spells spelled {} tokens rfl ready rfl).weaken (by rw [start, Nat.zero_add]) fun _ holds => holds

theorem run_ok_iff (limit endOffset : Nat) (tokens : List (Spanned Token)) (expr : Expr) :
    run limit endOffset {} tokens = .ok expr ↔
      Spells .disjunction (Token.untilEof tokens) expr ∧ expr.nesting ≤ limit := by
  obtain ⟨offset, same⟩ := run_eq_readAll limit endOffset {} tokens
  rw [same, Token.untilEof_eq]
  generalize tokens.takeWhile (fun token => !token.value.isEof) = front
  constructor
  · intro finished
    cases read : readAll limit {} front with
    | error error =>
      rw [read] at finished
      cases finished
    | ok last =>
      rw [read] at finished
      have spelled := (reads_initial.readAll read).finish finished
      have ended := readAll_start limit spelled
      rw [read] at ended
      exact ⟨spelled, ended.1⟩
  · rintro ⟨spelled, fits⟩
    have ended := readAll_start limit spelled
    cases read : readAll limit {} front with
    | error error =>
      rw [read] at ended
      exact absurd fits ended.1
    | ok last =>
      rw [read] at ended
      obtain ⟨-, outermost, operand, complete, value⟩ := ended
      show last.finish offset = .ok expr
      rw [finish_after offset complete, Reader.complete, outermost, value]

end Reader

theorem Spells.unique {spelling : List Token} {first second : Expr}
    (left : Spells .disjunction spelling first) (right : Spells .disjunction spelling second) : first = second := by
  let tokens : List (Spanned Token) := spelling.map fun token => ⟨token, .emptyAt .start⟩
  have values : tokens.map (·.value) = spelling := by simp [tokens, Function.comp_def]
  rw [← values] at left right
  have one := Reader.readAll_start (max first.nesting second.nesting) left
  have other := Reader.readAll_start (max first.nesting second.nesting) right
  cases read : Reader.readAll (max first.nesting second.nesting) {} tokens with
  | error error =>
    rw [read] at one
    exact absurd (Nat.le_max_left _ _) one.1
  | ok last =>
    rw [read] at one other
    obtain ⟨-, -, operand, complete, rfl⟩ := one
    obtain ⟨-, -, operand', complete', rfl⟩ := other
    rw [complete] at complete'
    cases complete'
    rfl

theorem word_of_isSegment {token : Token} {op : Comparison} (spelled : token.IsSegment op.word)
    (numbers : ∀ text value, token = .number text value → Number.IsNumeral text.toList) : token = .word op.word := by
  cases token with
  | word text =>
    cases spelled
    rfl
  | number text value =>
    have numeral := numbers text value rfl
    cases spelled
    cases op <;> exact absurd numeral (by decide)
  | dot | opening | closing | keyword | eof => cases spelled

/-- The reader of expressions accepts the grammar within its limit on nesting, and the grammar is
    unambiguous. Where numbers carry number text, comparisons are named by words. -/
theorem ofTokens_accepts_grammar (limit : Nat) (tokens : List (Spanned Token)) :
    (∀ expr, Expr.ofTokens limit tokens = .ok expr ↔
      Spells .disjunction (Token.untilEof tokens) expr ∧ expr.nesting ≤ max 1 (min limit 1024)) ∧
    (∀ spelling first second, Spells .disjunction spelling first → Spells .disjunction spelling second →
      first = second) ∧
    (∀ (token : Token) (op : Comparison), token.IsSegment op.word →
      (∀ text value, token = .number text value → Number.IsNumeral text.toList) → token = .word op.word) :=
  ⟨fun expr => Reader.run_ok_iff _ _ tokens expr, fun _ _ _ => Spells.unique, fun _ _ => word_of_isSegment⟩

theorem ofTokens_path_and_comparison :
    Expr.ofTokens 2 ([.word "tag", .dot, .word "build", .dot, .number "007" 7, .keyword .and, .keyword .not, .opening,
      .word "tag", .dot, .word "risk", .dot, .word "ge", .dot, .number "-1.5" (-1.5), .closing, .eof].map
        fun token => ⟨token, .emptyAt .start⟩) =
      .ok (.and (.predicate ⟨["build", "007"]⟩) (.not (.group (.comparison ⟨["risk"]⟩ .atLeast (-1.5))))) := by
  have build : SpellsPath [.dot, .word "build"] ["build"] := .first (.word "build")
  have path : SpellsPath [.dot, .word "build", .dot, .number "007" 7] ["build", "007"] :=
    build.next (.number "007" 7) fun op => by cases op <;> decide
  have risk : SpellsPath [.dot, .word "risk"] ["risk"] := .first (.word "risk")
  have bound : Spells .operand [.word "tag", .dot, .word "risk", .dot, .word "ge", .dot, .number "-1.5" (-1.5)]
      (.comparison ⟨["risk"]⟩ .atLeast (-1.5)) := .comparison risk (.word "ge")
  have both := Spells.disjunct (.and (.conjunct (.predicate path)) (.not (.group (.disjunct (.conjunct bound)))))
  exact ((ofTokens_accepts_grammar 2 _).1 _).mpr ⟨both, by decide⟩

end TagQuery
