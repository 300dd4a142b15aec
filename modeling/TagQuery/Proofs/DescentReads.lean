import TagQuery.Proofs.CursorReads
import TagQuery.Proofs.Descent

namespace TagQuery

theorem Token.beq_dot (token : Token) : (token == .dot) = decide (token = .dot) := by
  cases token <;> rfl

theorem Token.beq_keyword (token : Token) (joining : Keyword) :
    (token == .keyword joining) = decide (token = .keyword joining) := by
  cases token with
  | keyword other => cases other <;> cases joining <;> rfl
  | _ => rfl

structure Descent.Tracks (descent : Descent) (reader : Reader) : Prop where
  depth : reader.depth = descent.depth
  opened : reader.outer.length = descent.opened

/-- How a part of the descent ends that begins where a reader stands: it passes no end marker, and either it comes to a
    place from which the next reader comes to the same, or the reader fails as it does. -/
inductive Parsing.Leads {α : Type} (limit : Nat) (reader : Reader) (descent : Descent) (next : α → Reader)
    (held : α → Cursor → Prop) : EStateM.Result ParseError Descent α → Prop
  | ok {value : α} {last : Descent} (passes : descent.cursor.Passes last.cursor) (tracks : last.Tracks (next value))
      (same : reader.runAt limit descent.cursor = (next value).runAt limit last.cursor)
      (holds : held value last.cursor) : Leads limit reader descent next held (.ok value last)
  | error {error : ParseError} {last : Descent} (passes : descent.cursor.Passes last.cursor)
      (fails : reader.runAt limit descent.cursor = .error error) : Leads limit reader descent next held (.error error last)

theorem Descent.tracks_congr {descent : Descent} {first second : Reader} (nots : first.level.nots = second.level.nots)
    (outer : first.outer = second.outer) : descent.Tracks first ↔ descent.Tracks second := by
  have depth : first.depth = second.depth := by
    rw [Reader.depth_eq, Reader.depth_eq, nots, outer]
  constructor
  · rintro ⟨deep, opened⟩
    exact ⟨depth.symm.trans deep, outer ▸ opened⟩
  · rintro ⟨deep, opened⟩
    exact ⟨depth.trans deep, outer.symm ▸ opened⟩

abbrev Reader.after (reader : Reader) (operand : Expr) : Reader := { reader with phase := .closed operand }

abbrev Reader.inGroup (reader : Reader) (offset : Nat) : Reader := ⟨{}, ⟨reader.level, offset⟩ :: reader.outer, .operand⟩

theorem Reader.depth_inGroup (reader : Reader) (offset : Nat) : (reader.inGroup offset).depth = reader.depth + 1 := by
  rw [depth_eq, depth_eq, around]
  show 0 + (reader.level.nots + 1 + around reader.outer) = reader.level.nots + around reader.outer + 1
  omega

namespace Parsing

open Reader

section

variable {α β : Type} {limit : Nat} {reader other : Reader} {descent : Descent} {middle : α → Reader} {next : β → Reader}
  {kept : α → Cursor → Prop} {held : β → Cursor → Prop}

theorem Leads.bind {part : Parsing α} {rest : α → Parsing β} (first : Leads limit reader descent middle kept (part descent))
    (second : ∀ value last, descent.cursor.Passes last.cursor → last.Tracks (middle value) → kept value last.cursor →
      Leads limit (middle value) last next held (rest value last)) :
    Leads limit reader descent next held ((part >>= rest) descent) := by
  show Leads limit reader descent next held (EStateM.bind part rest descent)
  unfold EStateM.bind
  generalize part descent = result at first
  cases first with
  | error passes fails => exact .error passes fails
  | @ok value last passes tracks same holds =>
    dsimp only
    have ended := second value last passes tracks holds
    generalize rest value last = final at ended
    cases ended with
    | error onward fails => exact .error (passes.trans onward) (same.trans fails)
    | ok onward tracks' same' holds' => exact .ok (passes.trans onward) tracks' (same.trans same') holds'

theorem Leads.from_same {result : EStateM.Result ParseError Descent β}
    (same : reader.runAt limit descent.cursor = other.runAt limit descent.cursor)
    (leads : Leads limit other descent next held result) : Leads limit reader descent next held result := by
  cases leads with
  | error passes fails => exact .error passes (same.trans fails)
  | ok passes tracks same' holds => exact .ok passes tracks (same.trans same') holds

theorem Leads.weaken {weaker : β → Cursor → Prop} {result : EStateM.Result ParseError Descent β}
    (leads : Leads limit reader descent next held result) (weak : ∀ value cursor, held value cursor → weaker value cursor) :
    Leads limit reader descent next weaker result := by
  cases leads with
  | error passes fails => exact .error passes fails
  | ok passes tracks same holds => exact .ok passes tracks same (weak _ _ holds)

theorem Leads.step {result : EStateM.Result ParseError Descent β} (inside : descent.cursor.token ≠ .eof)
    (same : reader.runAt limit descent.cursor = other.runAt limit descent.cursor.advance)
    (leads : Leads limit other { descent with cursor := descent.cursor.advance } next held result) :
    Leads limit reader descent next held result := by
  have passes := Cursor.passes_advance inside
  cases leads with
  | error onward fails => exact .error (passes.trans onward) (same.trans fails)
  | ok onward tracks same' holds => exact .ok (passes.trans onward) tracks (same.trans same') holds

theorem get_bind {rest : Descent → Parsing β} (descent : Descent) : (get >>= rest) descent = rest descent descent := rfl

theorem advance_bind {rest : Unit → Parsing β} (descent : Descent) :
    (advance >>= rest) descent = rest () { descent with cursor := descent.cursor.advance } := rfl

theorem enter_bind {rest : Unit → Parsing β} (limit offset : Nat) (descent : Descent) :
    (enter limit offset >>= rest) descent =
      if descent.depth + 1 ≤ limit then rest () { descent with depth := descent.depth + 1 }
      else .error (.nestingTooDeep offset (descent.depth + 1) limit) { descent with depth := descent.depth + 1 } := by
  show EStateM.bind (enter limit offset) rest descent = _
  unfold EStateM.bind enter
  by_cases fits : descent.depth + 1 ≤ limit <;> simp only [fits, if_true, if_false]

theorem accept_bind {rest : Bool → Parsing β} {expected : Token} (descent : Descent)
    (lawful : (descent.cursor.token == expected) = decide (descent.cursor.token = expected)) :
    (accept expected >>= rest) descent =
      if descent.cursor.token = expected then rest true { descent with cursor := descent.cursor.advance }
      else rest false descent := by
  show EStateM.bind (accept expected) rest descent = _
  unfold EStateM.bind accept Cursor.accept Cursor.matches?
  rw [lawful]
  by_cases equal : descent.cursor.token = expected
  · simp only [equal, decide_true, if_true]
  · simp only [equal, decide_false, Bool.false_eq_true, if_false]

theorem accept_dot_bind {rest : Bool → Parsing β} (descent : Descent) :
    (accept .dot >>= rest) descent =
      if descent.cursor.token = .dot then rest true { descent with cursor := descent.cursor.advance }
      else rest false descent := accept_bind descent (Token.beq_dot _)

theorem accept_keyword_bind {rest : Bool → Parsing β} (joining : Keyword) (descent : Descent) :
    (accept (.keyword joining) >>= rest) descent =
      if descent.cursor.token = .keyword joining then rest true { descent with cursor := descent.cursor.advance }
      else rest false descent := accept_bind descent (Token.beq_keyword _ joining)

end

section Conditions

variable {limit : Nat} {reader : Reader} {descent : Descent}

theorem leads_expectDot (tracks : descent.Tracks reader) :
    Leads limit { reader with phase := .tag } descent (fun _ => { reader with phase := .point [] }) (fun _ _ => True)
      (expectDot descent) := by
  have reads := runAt_tag limit reader descent.cursor
  rw [expectDot, accept_dot_bind]
  by_cases dot : descent.cursor.token = .dot
  · rw [if_pos dot] at reads ⊢
    exact .step (by rw [dot]; nofun) reads (.ok (.refl _) ⟨tracks.depth, tracks.opened⟩ rfl trivial)
  · rw [if_neg dot] at reads ⊢
    exact .error (.refl _) reads

theorem leads_segment (tracks : descent.Tracks reader) (path : List String) :
    Leads limit { reader with phase := .point path } descent (fun text => reader.takeSegment path text) (fun _ _ => True)
      (segment descent) := by
  have reads := runAt_point limit reader descent.cursor path
  rw [segment, get_bind]
  cases spelled : descent.cursor.token.segment? with
  | none =>
    rw [spelled] at reads
    exact .error (.refl _) reads
  | some text =>
    rw [spelled] at reads
    have inside : descent.cursor.token ≠ .eof := by
      intro atEnd
      rw [atEnd] at spelled
      cases spelled
    have counts : Descent.Tracks { descent with cursor := descent.cursor.advance } (reader.takeSegment path text) := by
      unfold takeSegment
      split <;> exact ⟨tracks.depth, tracks.opened⟩
    exact .step inside reads (.ok (.refl _) counts rfl trivial)

theorem leads_comparison (tracks : descent.Tracks reader) (key : List String) (op : Comparison) :
    Leads limit { reader with phase := .comparison key op } descent reader.after
      (fun _ _ => True) (comparison key op descent) := by
  have reads := runAt_comparison limit reader descent.cursor key op
  rw [comparison, accept_dot_bind]
  by_cases dot : descent.cursor.token = .dot
  · rw [if_pos dot] at reads ⊢
    refine .step (by rw [dot]; nofun) reads ?_
    have value := runAt_comparisonPoint limit reader descent.cursor.advance key op
    rw [if_pos rfl, get_bind]
    cases shown : descent.cursor.advance.token with
    | number text operand =>
      rw [shown] at value
      refine .step (by rw [shown]; nofun) value ?_
      have ending := runAt_compared limit reader descent.cursor.advance.advance key op operand
      dsimp only
      rw [advance_bind, accept_dot_bind]
      by_cases point : descent.cursor.advance.advance.token = .dot
      · rw [if_pos point] at ending ⊢
        exact .step (by rw [point]; nofun) ending (.error (.refl _) (runAt_comparedPoint limit reader _))
      · rw [if_neg point] at ending ⊢
        exact .ok (.refl _) ⟨tracks.depth, tracks.opened⟩ ending trivial
    | word | dot | opening | closing | keyword | eof =>
      rw [shown] at value
      refine .error (.refl _) (value.trans ?_)
      rw [shown]
  · rw [if_neg dot] at reads ⊢
    exact .error (.refl _) reads

theorem leads_condition (turns : Nat) (path : List String) (some : path ≠ [])
    (tracks : descent.Tracks reader) (few : descent.cursor.rest.length ≤ turns) :
    Leads limit { reader with phase := .path path } descent reader.after
      (fun _ _ => True) (condition turns path descent) := by
  -- a segment takes two tokens and one turn
  induction turns generalizing path descent with
  | zero =>
    have reads := runAt_path limit reader descent.cursor path
    rw [if_neg (by rw [Cursor.token_of_rest few]; nofun)] at reads
    exact .ok (.refl _) ⟨tracks.depth, tracks.opened⟩ reads trivial
  | succ turns ih =>
    have reads := runAt_path limit reader descent.cursor path
    rw [condition, accept_dot_bind]
    by_cases dot : descent.cursor.token = .dot
    · rw [if_pos dot] at reads ⊢
      have shorter : descent.cursor.advance.rest.length < descent.cursor.rest.length :=
        Cursor.rest_advance_lt (by rw [dot]; nofun)
      refine .step (by rw [dot]; nofun) reads ?_
      have start : Descent.Tracks { descent with cursor := descent.cursor.advance } reader :=
        ⟨tracks.depth, tracks.opened⟩
      rw [if_pos rfl]
      refine Leads.bind (leads_segment start path) ?_
      intro text last passes counts _
      have fewer : last.cursor.rest.length ≤ descent.cursor.advance.rest.length := passes.rest_length_le
      have later : path.isEmpty = false := List.isEmpty_eq_false_iff.mpr some
      simp only [takeSegment, later, Bool.false_eq_true, if_false] at counts ⊢
      cases named : Comparison.ofWord? text with
      | none =>
        rw [named] at counts
        exact ih (path ++ [text]) (by simp) ⟨counts.depth, counts.opened⟩ (by omega)
      | some op =>
        rw [named] at counts
        exact leads_comparison ⟨counts.depth, counts.opened⟩ path op
    · rw [if_neg dot] at reads ⊢
      exact .ok (.refl _) ⟨tracks.depth, tracks.opened⟩ reads trivial

theorem leads_tag (turns : Nat) (tracks : descent.Tracks reader) (tagged : descent.cursor.token = .word tagWord)
    (few : descent.cursor.rest.length ≤ turns + 1) :
    Leads limit { reader with phase := .operand } descent reader.after
      (fun _ _ => True) (tag turns descent) := by
  have reads := runAt_operand limit reader descent.cursor
  simp only [tagged, if_true] at reads
  have shorter : descent.cursor.advance.rest.length < descent.cursor.rest.length :=
    Cursor.rest_advance_lt (by rw [tagged]; nofun)
  have start : Descent.Tracks { descent with cursor := descent.cursor.advance } reader :=
    ⟨tracks.depth, tracks.opened⟩
  rw [tag, advance_bind]
  refine .step (by rw [tagged]; nofun) reads (Leads.bind (leads_expectDot start) ?_)
  intro _ point past counts _
  have onward : point.Tracks reader := ⟨counts.depth, counts.opened⟩
  refine Leads.bind (leads_segment onward []) ?_
  intro text first further counts _
  have fewer : point.cursor.rest.length ≤ descent.cursor.advance.rest.length := past.rest_length_le
  have fewer' := further.rest_length_le
  exact leads_condition turns [text] (by simp) ⟨counts.depth, counts.opened⟩ (by omega)

end Conditions

section Chains

variable {limit bound : Nat} {reader : Reader} {item : Parsing Expr} {joining : Keyword} {join : Expr → Expr → Expr}
  {next : Expr → Reader} {stops : Token → Prop}

/-- How a reader takes a chain: the keyword leads it to a reader of one more operand, and with that operand it is where
    the joined expression would have led it. -/
structure Joins (limit bound : Nat) (reader : Reader) (item : Parsing Expr) (joining : Keyword) (join : Expr → Expr → Expr)
    (next : Expr → Reader) (stops : Token → Prop) : Prop where
  reads : ∀ left cursor, cursor.token = .keyword joining →
    (reader.after left).runAt limit cursor = (next left).runAt limit cursor.advance
  joined : ∀ left right cursor, stops cursor.token →
    ((next left).after right).runAt limit cursor = (reader.after (join left right)).runAt limit cursor
  counts : ∀ left descent, Descent.Tracks descent (next left) ↔ descent.Tracks reader
  items : ∀ left descent, Descent.Tracks descent (next left) → descent.cursor.rest.length ≤ bound →
    Leads limit (next left) descent (next left).after (fun _ cursor => stops cursor.token) (item descent)

theorem Joins.leads_chained (joins : Joins limit bound reader item joining join next stops) (turns : Nat) (left : Expr)
    {descent : Descent} (tracks : descent.Tracks reader) (few : descent.cursor.rest.length ≤ turns) (within : turns ≤ bound)
    (stopped : stops descent.cursor.token) :
    Leads limit (reader.after left) descent reader.after
      (fun _ cursor => stops cursor.token ∧ cursor.token ≠ .keyword joining)
      (chained joining join item turns left descent) := by
  -- a turn takes a token, so the turns do not run out before the tokens do
  induction turns generalizing left descent with
  | zero =>
    refine .ok (.refl _) ⟨tracks.depth, tracks.opened⟩ rfl ⟨stopped, ?_⟩
    rw [Cursor.token_of_rest few]
    nofun
  | succ turns ih =>
    rw [chained, accept_keyword_bind]
    by_cases keyword : descent.cursor.token = .keyword joining
    · have shorter : descent.cursor.advance.rest.length < descent.cursor.rest.length :=
        Cursor.rest_advance_lt (by rw [keyword]; nofun)
      have start : Descent.Tracks { descent with cursor := descent.cursor.advance } (next left) :=
        (joins.counts left _).mpr ⟨tracks.depth, tracks.opened⟩
      rw [if_pos keyword, if_pos rfl]
      refine .step (by rw [keyword]; nofun) (joins.reads left _ keyword) (Leads.bind (joins.items left _ start ?_) ?_)
      · exact Nat.le_trans (Nat.le_of_lt_succ (Nat.lt_of_lt_of_le shorter few)) (Nat.le_of_succ_le within)
      · intro right last passes counts stopped'
        have fewer : last.cursor.rest.length ≤ descent.cursor.advance.rest.length := passes.rest_length_le
        have onward : last.Tracks reader := (joins.counts left last).mp ⟨counts.depth, counts.opened⟩
        exact .from_same (joins.joined left right _ stopped') (ih (join left right) onward (by omega) (by omega) stopped')
    · rw [if_neg keyword, if_neg nofun]
      exact .ok (.refl _) ⟨tracks.depth, tracks.opened⟩ rfl ⟨stopped, keyword⟩

theorem Joins.leads_chain (joins : Joins limit bound reader item joining join next stops) {first : Reader}
    {descent : Descent}
    (begins : Leads limit first descent reader.after (fun _ cursor => stops cursor.token) (item descent))
    (few : descent.cursor.rest.length ≤ bound) :
    Leads limit first descent reader.after (fun _ cursor => stops cursor.token ∧ cursor.token ≠ .keyword joining)
      (chain joining join item bound descent) := by
  refine Leads.bind begins ?_
  intro left last passes counts stopped
  have fewer := passes.rest_length_le
  exact joins.leads_chained bound left ⟨counts.depth, counts.opened⟩ (by omega) (Nat.le_refl _) stopped

def ReadsOperand (limit turns : Nat) (part : Parsing Expr) : Prop :=
  ∀ reader descent, Descent.Tracks descent reader → descent.cursor.rest.length ≤ turns →
    Leads limit { reader with phase := .operand } descent reader.after (fun _ _ => True) (part descent)

theorem ReadsOperand.leads_conjunction (reads : ReadsOperand limit bound item) {descent : Descent}
    (fresh : reader.level.ands = none ∧ reader.level.nots = 0) (tracks : descent.Tracks reader)
    (few : descent.cursor.rest.length ≤ bound) :
    Leads limit { reader with phase := .operand } descent reader.after (fun _ cursor => cursor.token ≠ .keyword .and)
      (chain .and .and item bound descent) := by
  obtain ⟨none, zero⟩ := fresh
  have conjunction (left : Expr) : reader.level.conjunction left = left := by
    rw [Level.conjunction, none, zero]
    rfl
  have joins : Joins limit bound reader item .and .and
      (fun left => { reader with level := { ors := reader.level.ors, ands := some left }, phase := .operand })
      (fun _ => True) := by
    refine ⟨fun left cursor keyword => ?_, fun left right cursor _ => ?_,
      fun left descent => Descent.tracks_congr zero.symm rfl, fun left descent tracks few => ?_⟩
    · rw [runAt_closed, keyword]
      simp only [conjunction]
    · refine runAt_closed_of_conjunction rfl rfl ?_
      rw [conjunction]
      rfl
    · exact reads _ descent tracks few
  exact (joins.leads_chain (reads reader descent tracks few) few).weaken fun _ _ holds => holds.2

theorem ReadsOperand.leads_expression (reads : ReadsOperand limit bound item) {descent : Descent}
    (fresh : reader.level = {}) (tracks : descent.Tracks reader) (few : descent.cursor.rest.length ≤ bound) :
    Leads limit { reader with phase := .operand } descent reader.after
      (fun _ cursor => cursor.token ≠ .keyword .and ∧ cursor.token ≠ .keyword .or) (expression item bound descent) := by
  have empty : reader.level.ands = none ∧ reader.level.nots = 0 := by
    rw [fresh]
    exact ⟨rfl, rfl⟩
  have value (left : Expr) : reader.level.value left = left := by
    rw [fresh]
    rfl
  have joins : Joins limit bound reader (chain .and .and item bound) .or .or
      (fun left => { reader with level := { ors := some left }, phase := .operand })
      (fun token => token ≠ .keyword .and) := by
    refine ⟨fun left cursor keyword => ?_, fun left right cursor stopped => ?_,
      fun left descent => Descent.tracks_congr empty.2.symm rfl, fun left descent tracks few => ?_⟩
    · rw [runAt_closed, keyword]
      simp only [value]
    · refine runAt_closed_of_value rfl ?_ stopped
      rw [value]
      rfl
    · exact reads.leads_conjunction ⟨rfl, rfl⟩ tracks few
  exact joins.leads_chain (reads.leads_conjunction empty tracks few) few

end Chains

section Nesting

variable {limit : Nat} {reader : Reader} {descent : Descent}

theorem leads_beginNot (tracks : descent.Tracks reader) (negates : descent.cursor.token = .keyword .not) :
    Leads limit { reader with phase := .operand } descent
      (fun _ => { reader with level.nots := reader.level.nots + 1, phase := .operand })
      (fun _ cursor => cursor.rest.length < descent.cursor.rest.length) (beginNot limit descent) := by
  have inside : descent.cursor.token ≠ .eof := by
    rw [negates]
    nofun
  have reads := runAt_operand limit reader descent.cursor
  rw [negates, tracks.depth] at reads
  show Leads _ _ _ _ _ (if descent.depth + 1 ≤ limit then _ else _)
  by_cases fits : descent.depth + 1 ≤ limit
  · simp only [if_pos fits] at reads ⊢
    refine .ok (Cursor.passes_advance inside) ⟨?_, tracks.opened⟩ reads (Cursor.rest_advance_lt inside)
    rw [depth_eq, ← tracks.depth, depth_eq]
    exact Nat.add_right_comm _ _ _
  · simp only [if_neg fits] at reads ⊢
    exact .error (Cursor.passes_advance inside) reads

theorem leads_beginGroup (tracks : descent.Tracks reader) (opens : descent.cursor.token = .opening) :
    Leads limit { reader with phase := .operand } descent reader.inGroup
      (fun _ cursor => cursor.rest.length < descent.cursor.rest.length) (beginGroup limit descent) := by
  have inside : descent.cursor.token ≠ .eof := by
    rw [opens]
    nofun
  have reads := runAt_operand limit reader descent.cursor
  simp only [opens] at reads
  rw [beginGroup, get_bind, advance_bind, get_bind]
  have passes := Cursor.passes_advance inside
  cases shown : descent.cursor.advance.token with
  | closing => exact .error passes (reads.trans (runAt_opened_closing limit (reader.inGroup descent.cursor.offset) _ shown))
  | eof => exact .error passes (reads.trans (runAt_end _ shown))
  | word | number | dot | opening | keyword =>
    have entered := runAt_opened limit (reader.inGroup descent.cursor.offset) descent.cursor.offset
      (by rw [shown]; nofun) (by rw [shown]; nofun)
    rw [depth_inGroup, tracks.depth] at entered
    dsimp only
    rw [enter_bind]
    by_cases fits : descent.depth + 1 ≤ limit
    · rw [if_pos fits] at entered ⊢
      refine .ok passes ⟨?_, congrArg (· + 1) tracks.opened⟩ (reads.trans entered) (Cursor.rest_advance_lt inside)
      rw [depth_inGroup, tracks.depth]
    · rw [if_neg fits] at entered ⊢
      exact .error passes (reads.trans entered)

theorem leads_endGroup {offset : Nat} {inner : Expr} (tracks : descent.Tracks (reader.inGroup offset))
    (noAnd : descent.cursor.token ≠ .keyword .and) (noOr : descent.cursor.token ≠ .keyword .or) :
    Leads limit ((reader.inGroup offset).after inner) descent reader.after (fun _ _ => True)
      (endGroup offset inner descent) := by
  have reads := runAt_closed limit (reader.inGroup offset) descent.cursor inner
  rw [endGroup, get_bind]
  cases shown : descent.cursor.token with
  | closing =>
    simp only [shown] at reads
    have inside : descent.cursor.token ≠ .eof := by
      rw [shown]
      nofun
    refine .ok (Cursor.passes_advance inside) ⟨?_, ?_⟩ reads trivial
    · show reader.depth = descent.depth - 1
      rw [← tracks.depth, depth_inGroup, Nat.add_sub_cancel]
    · show reader.outer.length = descent.opened - 1
      rw [← tracks.opened, List.length_cons, Nat.add_sub_cancel]
  | eof =>
    simp only [shown] at reads
    exact .error (.refl _) reads
  | keyword joining =>
    cases joining with
    | and => exact absurd shown noAnd
    | or => exact absurd shown noOr
    | not =>
      simp only [shown] at reads
      refine .error (.refl _) (reads.trans ?_)
      rw [shown]
  | word | number | dot | opening =>
    simp only [shown] at reads
    refine .error (.refl _) (reads.trans ?_)
    rw [shown]

theorem leave_not {inner : Expr} (tracks : descent.Tracks { reader with level.nots := reader.level.nots + 1 }) :
    Leads limit (Reader.after { reader with level.nots := reader.level.nots + 1 } inner) descent reader.after
      (fun _ _ => True) ((leave >>= fun _ => pure (Expr.not inner)) descent) := by
  refine .ok (.refl _) ⟨?_, tracks.opened⟩ (runAt_closed_of_conjunction rfl rfl ?_) trivial
  · show reader.depth = descent.depth - 1
    rw [← tracks.depth, depth_eq, depth_eq]
    show _ = reader.level.nots + 1 + around reader.outer - 1
    omega
  · rw [Level.conjunction, Level.conjunction, Level.negate_not]

theorem readsOperand (limit turns : Nat) : ReadsOperand limit turns (operand limit turns) := by
  induction turns with
  | zero =>
    intro reader descent tracks few
    have reads := runAt_operand limit reader descent.cursor
    simp only [Cursor.token_of_rest few] at reads
    refine .error (.refl _) (reads.trans ?_)
    rw [Cursor.token_of_rest few]
  | succ turns ih =>
    intro reader descent tracks few
    have reads := runAt_operand limit reader descent.cursor
    rw [operand, get_bind]
    cases shown : descent.cursor.token with
    | keyword joining =>
      cases joining with
      | not =>
        dsimp only
        refine Leads.bind (leads_beginNot tracks shown) ?_
        intro _ start _ counts shorter
        refine Leads.bind (ih _ start ⟨counts.depth, counts.opened⟩ (by omega)) ?_
        intro inner last _ counts _
        exact leave_not ⟨counts.depth, counts.opened⟩
      | and | or =>
        simp only [shown] at reads
        refine .error (.refl _) (reads.trans ?_)
        rw [shown]
    | opening =>
      dsimp only
      refine Leads.bind (leads_beginGroup tracks shown) ?_
      intro offset start _ counts shorter
      have expression := @ReadsOperand.leads_expression limit turns (reader.inGroup offset) _ ih start rfl counts (by omega)
      refine Leads.bind expression ?_
      intro inner last _ counts stopped
      exact leads_endGroup ⟨counts.depth, counts.opened⟩ stopped.1 stopped.2
    | word text =>
      simp only [shown] at reads
      by_cases tag : text = tagWord
      · rw [tag] at shown
        simp only [if_pos tag]
        exact leads_tag turns tracks shown few
      · simp only [if_neg tag] at reads ⊢
        refine .error (.refl _) (reads.trans ?_)
        rw [shown]
    | closing =>
      simp only [shown, tracks.opened] at reads
      by_cases outermost : descent.opened = 0
      · simp only [if_pos outermost] at reads ⊢
        exact .error (.refl _) reads
      · simp only [if_neg outermost] at reads ⊢
        refine .error (.refl _) (reads.trans ?_)
        rw [shown]
    | number | dot | eof =>
      simp only [shown] at reads
      refine .error (.refl _) (reads.trans ?_)
      rw [shown]

end Nesting

end Parsing

namespace Descent

open Reader Parsing

theorem runAt_start {limit : Nat} {cursor : Cursor} (inside : cursor.token ≠ .eof) :
    Reader.runAt limit {} cursor = Reader.runAt limit { phase := .operand } cursor := by
  rcases cursor.cases with atEnd | ⟨token, current, other, -, -⟩
  · exact absurd atEnd inside
  · rw [runAt_current _ current other, runAt_current _ current other]
    rfl

theorem parse_reads (limit : Nat) (tokens : List (Spanned Token)) :
    ∃ last : Descent, Cursor.Passes ⟨tokens, 0⟩ last.cursor ∧
      Descent.parse limit tokens =
        match Expr.ofTokens limit tokens with
        | .ok expr => .ok expr last
        | .error error => .error error last := by
  let start : Descent := { cursor := ⟨tokens, 0⟩ }
  have reads : Expr.ofTokens limit tokens = Reader.runAt (Limits.clampNesting limit) {} start.cursor := rfl
  rw [Descent.parse, Parsing.parse, get_bind]
  by_cases atEnd : start.cursor.token = .eof
  · have ended : Reader.runAt (Limits.clampNesting limit) {} start.cursor = _ := runAt_end {} atEnd
    refine ⟨start, .refl _, ?_⟩
    rw [reads, ended, if_pos ((Cursor.isAtEnd_iff _).mpr atEnd)]
    rfl
  · rw [if_neg fun ended => atEnd ((Cursor.isAtEnd_iff _).mp ended), reads, runAt_start atEnd]
    have operands := readsOperand (Limits.clampNesting limit) tokens.length
    have leads := @ReadsOperand.leads_expression _ _ {} _ operands start rfl ⟨rfl, rfl⟩ (Nat.le_refl _)
    show ∃ last : Descent, _ ∧ EStateM.bind _ _ start = _
    unfold EStateM.bind
    generalize expression (operand (Limits.clampNesting limit) tokens.length) tokens.length start = result at leads
    cases leads with
    | @error error last passes fails =>
      rw [fails]
      exact ⟨last, passes, rfl⟩
    | @ok expr last passes tracks same stopped =>
      obtain ⟨noAnd, noOr⟩ := stopped
      have final := runAt_closed (Limits.clampNesting limit) {} last.cursor expr
      refine ⟨last, passes, ?_⟩
      rw [same, final]
      dsimp only
      rw [get_bind]
      cases shown : last.cursor.token with
      | keyword joining =>
        cases joining with
        | and => exact absurd shown noAnd
        | or => exact absurd shown noOr
        | not => rfl
      | word | number | dot | opening | closing | eof => rfl

end Descent

end TagQuery
