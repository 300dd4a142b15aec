import TagQuery.Proofs.ParenMatching

namespace TagQuery

def Token.unplaced (token : Token) : Spanned Token := ⟨token, .emptyAt .start⟩

/-- Whether an error is about a token that cannot stand where it is. An unbalanced parenthesis can also be an opening one
    that is never closed, so the tokens have to tell. -/
def ParseError.RefusesToken (tokens : List (Spanned Token)) : ParseError → Prop
  | .unexpectedToken .. | .trailingTokens .. => True
  | .unbalancedParens offset => ∃ token ∈ tokens, token.offset = offset ∧ token.value = .closing
  | _ => False

namespace Reader

variable {limit : Nat} {reader : Reader} {operand : Expr}

theorem read_closing {enclosing : Enclosing} {outer : List Enclosing} (complete : reader.operand? = some operand)
    (around : reader.outer = enclosing :: outer) :
    reader.read limit (Token.unplaced .closing) =
      .ok ⟨enclosing.level, outer, .closed (.group (reader.level.value operand))⟩ := by
  have noPoint : (Token.unplaced .closing).value ≠ .dot := show Token.closing ≠ .dot by nofun
  rw [read_after complete noPoint]
  simp only [afterOperand, Token.unplaced, around]

theorem readAll_closings (limit : Nat) (outer : List Enclosing) (complete : reader.operand? = some operand)
    (around : reader.outer = outer) :
    ∃ last whole, reader.readAll limit (List.replicate outer.length (Token.unplaced .closing)) = .ok last ∧
      last.outer = [] ∧ last.operand? = some whole := by
  induction outer generalizing reader operand with
  | nil => exact ⟨reader, operand, rfl, around, complete⟩
  | cons enclosing outer ih =>
    have step := @read_closing limit reader operand enclosing outer complete around
    obtain ⟨last, whole, read, outermost, final⟩ :=
      @ih ⟨enclosing.level, outer, .closed (.group (reader.level.value operand))⟩ _ rfl rfl
    refine ⟨last, whole, ?_, outermost, final⟩
    rw [List.length_cons, List.replicate_succ, readAll_cons step, read]

def pathTail : List (Spanned Token) := [Token.unplaced .dot, Token.unplaced (.word "a")]

theorem readAll_pathTail (limit : Nat) (reader : Reader) :
    { reader with phase := .tag }.readAll limit pathTail = .ok { reader with phase := .path ["a"] } :=
  readAll_path (.first (.word "a")) reader pathTail rfl

theorem beginOperand_tag (limit : Nat) (reader : Reader) :
    reader.beginOperand limit (Token.unplaced (.word tagWord)) = .ok { reader with phase := .tag } := by
  simp only [beginOperand, Token.unplaced, if_true]

theorem read_tag_opened {level : Level} {outer : List Enclosing} {offset : Nat}
    (fits : depth ⟨level, outer, .opened offset⟩ ≤ limit) :
    Reader.read limit ⟨level, outer, .opened offset⟩ (Token.unplaced (.word tagWord)) = .ok ⟨level, outer, .tag⟩ := by
  have noClosing : (Token.unplaced (.word tagWord)).value ≠ .closing := show Token.word tagWord ≠ .closing by nofun
  simp only [Reader.read, noClosing, if_false, checkDepth, fits, if_true]
  exact beginOperand_tag limit _

theorem read_segment (limit : Nat) (level : Level) (outer : List Enclosing) (path : List String) :
    Reader.read limit ⟨level, outer, .point path⟩ (Token.unplaced (.word "a")) = .ok ⟨level, outer, .path (path ++ ["a"])⟩ := by
  have plain : (if path.isEmpty then none else Comparison.ofWord? "a") = none := by
    split
    · rfl
    · decide
  simp only [Reader.read, readSegment, Token.unplaced, Token.segment?, plain]

theorem Viable.reaches_operand (viable : reader.Viable limit) :
    ∃ tokens last operand, (∀ token ∈ tokens, token.value.isEof = false) ∧ reader.readAll limit tokens = .ok last ∧
      last.operand? = some operand := by
  obtain ⟨fits, goesOn⟩ := viable
  obtain ⟨level, outer, phase⟩ := reader
  have fromTag (step : Reader.read limit ⟨level, outer, phase⟩ (Token.unplaced (.word tagWord)) = .ok ⟨level, outer, .tag⟩) :
      Reader.readAll limit ⟨level, outer, phase⟩ (Token.unplaced (.word tagWord) :: pathTail) =
        .ok ⟨level, outer, .path ["a"]⟩ :=
    (readAll_cons step).trans (readAll_pathTail limit ⟨level, outer, .tag⟩)
  cases phase with
  | start | operand =>
    exact ⟨_, _, .predicate ⟨["a"]⟩, by decide, fromTag (beginOperand_tag limit _), rfl⟩
  | opened offset => exact ⟨_, _, .predicate ⟨["a"]⟩, by decide, fromTag (read_tag_opened fits), rfl⟩
  | tag => exact ⟨pathTail, _, .predicate ⟨["a"]⟩, by decide, readAll_pathTail limit ⟨level, outer, .tag⟩, rfl⟩
  | point path =>
    exact ⟨[Token.unplaced (.word "a")], _, .predicate ⟨path ++ ["a"]⟩, by decide,
      readAll_cons (read_segment limit level outer path), rfl⟩
  | path path => exact ⟨[], _, .predicate ⟨path⟩, nofun, rfl, rfl⟩
  | comparison key op =>
    exact ⟨[Token.unplaced .dot, Token.unplaced (.number "1" 1)], ⟨level, outer, .compared key op 1⟩, .comparison ⟨key⟩ op 1,
      by decide, rfl, rfl⟩
  | comparisonPoint key op =>
    exact ⟨[Token.unplaced (.number "1" 1)], ⟨level, outer, .compared key op 1⟩, .comparison ⟨key⟩ op 1, by decide, rfl, rfl⟩
  | compared key op operand => exact ⟨[], _, .comparison ⟨key⟩ op operand, nofun, rfl, rfl⟩
  | comparedPoint => exact absurd rfl goesOn
  | closed group => exact ⟨[], _, group, nofun, rfl, rfl⟩

theorem run_of_readAll {last : Reader} {tokens : List (Spanned Token)}
    (free : ∀ token ∈ tokens, token.value.isEof = false) (read : reader.readAll limit tokens = .ok last)
    (complete : last.operand? = some operand) (outermost : last.outer = []) (endOffset : Nat) :
    reader.run limit endOffset tokens = .ok (last.level.value operand) := by
  obtain ⟨offset, same⟩ := run_eq_readAll limit endOffset reader tokens
  rw [List.takeWhile_eq_self_iff.mpr fun token member => by simp [free token member], read] at same
  rw [same]
  show last.finish offset = _
  rw [finish_after offset complete, Reader.complete, outermost]

theorem Viable.continues {last : Reader} {front : List (Spanned Token)} (viable : last.Viable limit)
    (free : ∀ token ∈ front, token.value.isEof = false) (read : reader.readAll limit front = .ok last) :
    ∃ continuation expr, ∀ endOffset, reader.run limit endOffset (front ++ continuation) = .ok expr := by
  obtain ⟨tail, reached, operand, noMarker, reaches, held⟩ := viable.reaches_operand
  obtain ⟨final, whole, closes, outermost, value⟩ := readAll_closings limit reached.outer held rfl
  refine ⟨tail ++ List.replicate reached.outer.length (Token.unplaced .closing), final.level.value whole,
    run_of_readAll (List.forall_mem_append.mpr ⟨free, List.forall_mem_append.mpr ⟨noMarker, ?_⟩⟩) ?_ value outermost⟩
  · intro token member
    rw [List.eq_of_mem_replicate member]
    rfl
  · rw [readAll_append read, readAll_append reaches, closes]

theorem run_of_refusal {last : Reader} {front : List (Spanned Token)} {token : Spanned Token} {error : ParseError}
    (free : ∀ token ∈ front, token.value.isEof = false) (read : reader.readAll limit front = .ok last)
    (present : token.value.isEof = false) (refused : last.read limit token = .error error) (endOffset : Nat)
    (rest : List (Spanned Token)) : reader.run limit endOffset (front ++ token :: rest) = .error error := by
  obtain ⟨offset, same⟩ := run_eq_readAll limit endOffset reader (front ++ token :: rest)
  rw [List.takeWhile_append_of_pos fun token member => by simp [free token member],
    List.takeWhile_cons_of_pos (by simp [present]), readAll_append read] at same
  rw [same]
  simp only [readAll, refused]

theorem Within.rejected {limit' endOffset : Nat} {tokens : List (Spanned Token)} {error : ParseError}
    (within : reader.Within limit) (within' : reader.Within limit') (failed : reader.run limit endOffset tokens = .error error)
    (shallow : ¬ CutOff limit (reader.run limit endOffset tokens)) (expr : Expr) :
    reader.run limit' endOffset tokens ≠ .ok expr := by
  intro accepted
  have under := within.run_of_le (Nat.le_max_left limit limit') endOffset tokens
  have under' := within'.run_of_le (Nat.le_max_right limit limit') endOffset tokens
  rcases under with same | cut
  · rcases under' with same' | ⟨offset, cut⟩
    · rw [same, failed, accepted] at same'
      cases same'
    · rw [accepted] at cut
      cases cut
  · exact shallow cut

end Reader

theorem Cursor.offset_append (front back : List (Spanned Token)) :
    Cursor.offset ⟨front ++ back, front.length⟩ =
      (back.head?.map (·.offset)).getD (Cursor.endOffset (front ++ back)) := by
  rw [Cursor.offset, Cursor.current?, List.getElem?_append_right (Nat.le_refl _), Nat.sub_self, List.head?_eq_getElem?]

namespace Expr

variable {limit : Nat} {tokens : List (Spanned Token)}

theorem ofTokens_ok_congr {first second : List (Spanned Token)} (same : first.map (·.value) = second.map (·.value))
    (expr : Expr) : ofTokens limit first = .ok expr ↔ ofTokens limit second = .ok expr := by
  rw [ofTokens, ofTokens, Reader.run_ok_iff, Reader.run_ok_iff, Token.untilEof_map, Token.untilEof_map, same]

/-- Whether a list of tokens goes wrong at a place for the first time. What is before the place can be continued to a
    list that is accepted; what reaches past it cannot, whatever the limit. The place after the last token is the end. -/
structure FaultAt (limit : Nat) (tokens : List (Spanned Token)) (place : Nat) : Prop where
  inside : place ≤ (Token.untilEof tokens).length
  continues : ∃ continuation expr, ofTokens limit (tokens.take place ++ continuation) = .ok expr
  stuck : place < (Token.untilEof tokens).length → ∀ other list expr,
    (tokens.take (place + 1)).map (·.value) <+: list.map (·.value) → ofTokens other list ≠ .ok expr
  ended : place = (Token.untilEof tokens).length → ∀ other expr, ofTokens other tokens ≠ .ok expr

theorem not_cutOff_of_refusesToken {error : ParseError} (refuses : error.RefusesToken tokens) (limit : Nat) :
    ¬ Reader.CutOff limit (.error error : Except ParseError Expr) := by
  rintro ⟨offset, same⟩
  cases same
  exact refuses

theorem ofTokens_rejected {error : ParseError} (failed : ofTokens limit tokens = .error error)
    (shallow : ¬ Reader.CutOff (Limits.clampNesting limit) (.error error : Except ParseError Expr)) (other : Nat)
    (expr : Expr) : ofTokens other tokens ≠ .ok expr := by
  rw [← failed] at shallow
  exact (Reader.within_start _).rejected (Reader.within_start _) failed shallow expr

section

variable {front rest back : List (Spanned Token)} {token : Spanned Token} {last : Reader} {error : ParseError}

theorem continues_of_viable (free : ∀ token ∈ front, token.value.isEof = false)
    (read : Reader.readAll (Limits.clampNesting limit) {} front = .ok last)
    (viable : last.Viable (Limits.clampNesting limit)) :
    ∃ continuation expr, ofTokens limit ((front ++ back).take front.length ++ continuation) = .ok expr := by
  obtain ⟨continuation, expr, accepted⟩ := viable.continues free read
  refine ⟨continuation, expr, ?_⟩
  rw [List.take_left]
  exact accepted _

theorem faultAt_of_refusal (free : ∀ token ∈ front, token.value.isEof = false)
    (read : Reader.readAll (Limits.clampNesting limit) {} front = .ok last) (present : token.value.isEof = false)
    (refused : last.read (Limits.clampNesting limit) token = .error error)
    (viable : last.Viable (Limits.clampNesting limit))
    (shallow : ¬ Reader.CutOff (Limits.clampNesting limit) (.error error : Except ParseError Expr)) :
    FaultAt limit (front ++ token :: rest) front.length where
  inside := by
    rw [Token.untilEof_append free, List.length_append, List.length_map]
    exact Nat.le_add_right _ _
  continues := continues_of_viable free read viable
  stuck := by
    rintro - other list expr ⟨more, values⟩ accepted
    -- only the values of the tokens that follow are known, so they are given places
    let filled := front ++ token :: more.map Token.unplaced
    have beginning : (front ++ token :: rest).take (front.length + 1) = front ++ [token] := by
      rw [List.append_cons]
      exact List.take_left' (by simp)
    have same : filled.map (·.value) = list.map (·.value) := by
      rw [← values, beginning]
      simp [filled, Token.unplaced, Function.comp_def]
    have failed : ofTokens limit filled = .error error := Reader.run_of_refusal free read present refused _ _
    exact ofTokens_rejected failed shallow other expr ((ofTokens_ok_congr same expr).mpr accepted)
  ended := by
    intro short
    rw [Token.untilEof_append free, Token.untilEof_cons present, List.length_append, List.length_map,
      List.length_cons] at short
    omega

theorem faultAt_of_end (free : ∀ token ∈ front, token.value.isEof = false)
    (read : Reader.readAll (Limits.clampNesting limit) {} front = .ok last)
    (atEnd : ∀ token ∈ back.head?, token.value.isEof = true) (failed : ofTokens limit (front ++ back) = .error error)
    (viable : last.Viable (Limits.clampNesting limit))
    (shallow : ¬ Reader.CutOff (Limits.clampNesting limit) (.error error : Except ParseError Expr)) :
    FaultAt limit (front ++ back) front.length := by
  have nothing : Token.untilEof back = [] := by
    cases back with
    | nil => rfl
    | cons marker back => simp [Token.untilEof_eq, atEnd marker rfl]
  have length : (Token.untilEof (front ++ back)).length = front.length := by
    rw [Token.untilEof_append free, nothing, List.append_nil, List.length_map]
  exact
    { inside := Nat.le_of_eq length.symm
      continues := continues_of_viable free read viable
      stuck := fun short => absurd short (by omega)
      ended := fun _ => ofTokens_rejected failed shallow }

end

end Expr

namespace Reader

theorem Within.viable_of_refusal {limit : Nat} {last : Reader} {token : Spanned Token} {tokens : List (Spanned Token)}
    {error : ParseError} (within : last.Within limit) (refused : last.read limit token = .error error)
    (refuses : error.RefusesToken tokens) : error.offset = token.offset ∧ last.Viable limit := by
  cases within.refusal refused with
  | empty | deep | operand => exact refuses.elim
  | unexpected _ viable => exact ⟨rfl, viable⟩
  | trailing viable => exact ⟨rfl, viable⟩
  | unbalanced viable => exact ⟨rfl, viable⟩

theorem Awaits.viable_of_finish {limit stop : Nat} {last : Reader} {front back : List (Spanned Token)} {error : ParseError}
    (awaits : last.Awaits (Unpartnered.ofTokens front)) (within : last.Within limit)
    (increasing : (front ++ back).Pairwise fun first second => first.offset < second.offset)
    (failed : last.finish stop = .error error) (refuses : error.RefusesToken (front ++ back)) :
    error.offset = stop ∧ last.Viable limit := by
  -- an opening parenthesis that waits is no closing one
  have noClosing (offset : Nat) (same : error = .unbalancedParens offset) : False := by
    subst same
    obtain ⟨token, waiting, place, opening⟩ := awaits.unbalanced_of_finish within failed
    obtain ⟨other, member, same, closing⟩ := refuses
    have among := Unpartnered.mem_of_mem_waiting waiting
    have equal := Spanned.eq_of_increasing increasing (List.mem_append_left _ among) member (place.trans same.symm)
    rw [equal, closing] at opening
    cases opening
  have ending := within.ending stop
  rw [failed] at ending
  cases ending with
  | unclosed => exact (noClosing _ rfl).elim
  | opened => exact (noClosing _ rfl).elim
  | empty | operand => exact refuses.elim
  | unexpected _ _ viable => exact ⟨rfl, viable⟩

end Reader

theorem Cursor.index_of_offset {tokens : List (Spanned Token)} {index place : Nat} {token : Spanned Token}
    (increasing : tokens.Pairwise fun first second => first.offset < second.offset) (inside : place ≤ tokens.length)
    (found : tokens[index]? = some token) (same : token.offset = Cursor.offset ⟨tokens, place⟩) :
    index = place ∨ place = tokens.length := by
  cases here : tokens[place]? with
  | none => exact Or.inr (Nat.le_antisymm inside (List.getElem?_eq_none_iff.mp here))
  | some other =>
    have offset : Cursor.offset ⟨tokens, place⟩ = other.offset := by simp only [Cursor.offset, Cursor.current?, here]; rfl
    exact Or.inl (Spanned.index_of_increasing increasing found here (same.trans offset))

/-- A syntax error about a token stands at the first place where a list goes wrong. -/
theorem syntax_error_at_first_fault (limit : Nat) {tokens : List (Spanned Token)} {error : ParseError}
    (increasing : tokens.Pairwise fun first second => first.offset < second.offset)
    (failed : Expr.ofTokens limit tokens = .error error) (refuses : error.RefusesToken tokens) :
    ∃ place, Cursor.offset ⟨tokens, place⟩ = error.offset ∧ Expr.FaultAt limit tokens place ∧
      ∀ index token, tokens[index]? = some token → token.offset = error.offset →
        index = place ∨ place = tokens.length := by
  have shallow := Expr.not_cutOff_of_refusesToken refuses (Limits.clampNesting limit)
  have stops := Reader.run_stops (Limits.clampNesting limit) (Cursor.endOffset tokens) {} tokens
  rw [show Reader.run _ _ {} tokens = .error _ from failed] at stops
  cases stops with
  | refused front rest token last error' whole free read present refusal outcome =>
    cases outcome
    subst whole
    obtain ⟨place, viable⟩ := ((Reader.within_start _).readAll read).viable_of_refusal refusal refuses
    have offset : Cursor.offset ⟨front ++ token :: rest, front.length⟩ = error.offset :=
      (Cursor.offset_append front (token :: rest)).trans place.symm
    exact ⟨front.length, offset, Expr.faultAt_of_refusal free read present refusal viable shallow,
      fun index other found same => Cursor.index_of_offset increasing (by simp) found (same.trans offset.symm)⟩
  | ended front back last whole free read atEnd outcome =>
    subst whole
    have within := (Reader.within_start _).readAll read
    obtain ⟨place, viable⟩ := (Reader.awaits_start.readAll read).viable_of_finish within increasing outcome.symm refuses
    have offset : Cursor.offset ⟨front ++ back, front.length⟩ = error.offset :=
      (Cursor.offset_append front back).trans place.symm
    exact ⟨front.length, offset, Expr.faultAt_of_end free read atEnd failed viable shallow,
      fun index other found same => Cursor.index_of_offset increasing (by simp) found (same.trans offset.symm)⟩

theorem syntax_error_at_first_fault_dangling :
    ∃ tokens : List (Spanned Token), tokens.map (·.value) =
        [.opening, .word "tag", .dot, .word "a", .keyword .and, .closing, .eof] ∧
      tokens.Pairwise (fun first second => first.offset < second.offset) ∧
      Expr.ofTokens 1 tokens = .error (.unexpectedToken 11 "')'" "expression") ∧
      ∃ place, Cursor.offset ⟨tokens, place⟩ = 11 ∧ Expr.FaultAt 1 tokens place := by
  let placed (offset : Nat) (token : Token) : Spanned Token := ⟨token, .emptyAt ⟨offset, 1, offset + 1⟩⟩
  let tokens := [placed 0 .opening, placed 1 (.word "tag"), placed 4 .dot, placed 5 (.word "a"), placed 7 (.keyword .and),
    placed 11 .closing, placed 12 .eof]
  have increasing : tokens.Pairwise fun first second => first.offset < second.offset := by decide
  have failed : Expr.ofTokens 1 tokens = .error (.unexpectedToken 11 "')'" "expression") := by rfl
  obtain ⟨place, offset, fault, -⟩ := syntax_error_at_first_fault 1 increasing failed trivial
  exact ⟨tokens, rfl, increasing, failed, place, offset, fault⟩

end TagQuery
