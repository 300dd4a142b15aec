import TagQuery.Proofs.DescentReads
import TagQuery.Proofs.ErrorPlaces
import TagQuery.Proofs.ViablePrefix

namespace TagQuery

def ParseError.moveTo (offset : Nat) : ParseError → ParseError
  | .unexpectedToken _ found expected => .unexpectedToken offset found expected
  | .unbalancedParens _ => .unbalancedParens offset
  | .emptyExpression _ => .emptyExpression offset
  | .invalidOperand _ found => .invalidOperand offset found
  | .trailingTokens _ found => .trailingTokens offset found
  | .nestingTooDeep _ depth limit => .nestingTooDeep offset depth limit

def ParseError.moved (stop other : Nat) (error : ParseError) : ParseError :=
  if error.offset = stop then error.moveTo other else error

namespace Reader

variable {limit : Nat} {reader last : Reader} {front : List (Spanned Token)}

theorem run_append (free : ∀ token ∈ front, token.value.isEof = false) (read : reader.readAll limit front = .ok last)
    (stop : Nat) (back : List (Spanned Token)) : reader.run limit stop (front ++ back) = last.run limit stop back := by
  induction front generalizing reader with
  | nil =>
    cases read
    rfl
  | cons token front ih =>
    obtain ⟨present, others⟩ := List.forall_mem_cons.mp free
    cases step : reader.read limit token with
    | error error => simp [readAll, step] at read
    | ok next =>
      rw [readAll_cons step] at read
      simp only [List.cons_append, run, present, Bool.false_eq_true, if_false, step]
      exact ih others read

theorem run_marked {marker : Spanned Token} (ended : marker.value.isEof = true) (stop other : Nat) (reader : Reader)
    (front back : List (Spanned Token)) :
    reader.run limit stop (front ++ marker :: back) = reader.run limit other (front ++ [marker]) := by
  induction front generalizing reader with
  | nil => simp only [List.nil_append, run, ended, if_true]
  | cons token front ih =>
    simp only [List.cons_append, run]
    split
    · rfl
    · cases reader.read limit token with
      | error error => rfl
      | ok next => exact ih next

theorem began_of_readAll (read : Reader.readAll limit {} front = .ok last) :
    (∀ enclosing ∈ last.outer, ∃ token ∈ front, token.offset = enclosing.offset) ∧
      ∀ offset, last.phase = .opened offset → ∃ token ∈ front, token.offset = offset := by
  have awaits := awaits_start.readAll read
  refine ⟨fun enclosing member => ?_, fun offset phase => ?_⟩
  · have listed : enclosing.offset ∈ last.outer.map (·.offset) := List.mem_map_of_mem member
    rw [← awaits.around] at listed
    obtain ⟨opening, waiting, same⟩ := List.mem_map.mp listed
    exact ⟨opening, Unpartnered.mem_of_mem_waiting waiting, same⟩
  · obtain ⟨opening, waiting, same⟩ := awaits.opened phase
    exact ⟨opening, Unpartnered.mem_of_mem_waiting waiting, same⟩

theorem finish_moved {stop : Nat} (other : Nat) (around : ∀ enclosing ∈ reader.outer, enclosing.offset ≠ stop)
    (opened : ∀ offset, reader.phase = .opened offset → offset ≠ stop) :
    reader.finish other = (reader.finish stop).mapError (.moved stop other) := by
  have complete (operand : Expr) : reader.complete operand = (reader.complete operand).mapError (.moved stop other) := by
    unfold Reader.complete
    cases outer : reader.outer with
    | nil => rfl
    | cons enclosing rest =>
      have apart : enclosing.offset ≠ stop := around enclosing (by rw [outer]; exact List.mem_cons_self)
      exact congrArg Except.error (if_neg apart).symm
  unfold finish
  split
  -- the parenthesis of an empty group, an operand that is complete, and in the other phases the end itself
  case h_3 offset phase => exact congrArg Except.error (if_neg (opened offset phase)).symm
  case h_6 | h_10 | h_11 => exact complete _
  all_goals exact congrArg Except.error (if_pos rfl).symm

end Reader

namespace Expr

variable {limit : Nat} {front : List (Spanned Token)} {marker : Spanned Token}

/-- Without its end marker a list is read to the same, but that errors at the end stand behind the last token. -/
theorem ofTokens_without_marker (free : ∀ token ∈ front, token.value.isEof = false) (ended : marker.value.isEof = true)
    (apart : ∀ token ∈ front, token.offset ≠ marker.offset) :
    ofTokens limit front =
      (ofTokens limit (front ++ [marker])).mapError (.moved marker.offset (Cursor.endOffset front)) := by
  -- an error that stands at a token is the same in both
  have elsewhere {offset : Nat} (here : ∃ token ∈ front, token.offset = offset) : offset ≠ marker.offset := by
    obtain ⟨token, member, rfl⟩ := here
    exact apart token member
  cases @Expr.stops_of_ofTokens limit front _ rfl with
  | refused before rest token last error whole unmarked read present refusal outcome =>
    have place : ∃ token ∈ front, token.offset = error.offset := by
      rcases Reader.offset_of_read refusal with here | phase
      · exact ⟨token, by simp [whole], here.symm⟩
      · obtain ⟨opening, member, same⟩ := (Reader.began_of_readAll read).2 _ phase
        exact ⟨opening, by simp [whole, member], same⟩
    have failed : ofTokens limit (front ++ [marker]) = .error error := by
      rw [whole, List.append_assoc]
      exact Reader.run_of_refusal unmarked read present refusal _ _
    rw [outcome, failed]
    exact congrArg Except.error (if_neg (elsewhere place)).symm
  | ended before back last whole unmarked read atEnd outcome =>
    cases back with
    | cons token back =>
      have inside := free token (by simp [whole])
      rw [atEnd token rfl] at inside
      cases inside
    | nil =>
      obtain rfl : front = before := by rw [whole, List.append_nil]
      obtain ⟨around, opened⟩ := Reader.began_of_readAll read
      have marked : ofTokens limit (front ++ [marker]) = last.finish marker.offset := by
        rw [ofTokens, Reader.run_append free read, Reader.run, if_pos ended]
      rw [outcome, marked]
      exact Reader.finish_moved _ (fun enclosing member => elsewhere (around enclosing member))
        fun offset phase => elsewhere (opened offset phase)

end Expr

theorem tokenize_ended {source : String} {lexed : Lexed} (read : tokenize source = .ok lexed) :
    ∃ (front : List (Spanned Token)) (marker : Spanned Token), lexed.tokens = front ++ [marker] ∧
      marker.value.isEof = true ∧ (∀ token ∈ front, token.value.isEof = false) ∧ ∀ token ∈ front, token.offset ≠ marker.offset := by
  obtain ⟨marker, member, ended⟩ := tokenize_marked read
  have inner := tokenize_inner read
  have increasing := tokenize_increasing read
  have nonempty := List.ne_nil_of_mem member
  have whole := List.dropLast_append_getLast nonempty
  rw [← whole] at increasing member
  rw [List.pairwise_append] at increasing
  obtain ⟨-, -, before⟩ := increasing
  rcases List.mem_append.mp member with early | last
  · rw [inner marker early] at ended
    cases ended
  · obtain rfl := List.mem_singleton.mp last
    exact ⟨_, _, whole.symm, ended, inner, fun token early => Nat.ne_of_lt (before token early _ last)⟩

theorem Cursor.Passes.index_le {front back : List (Spanned Token)} {marker : Spanned Token} {last : Cursor}
    (passes : Cursor.Passes ⟨front ++ marker :: back, 0⟩ last) (ended : marker.value = .eof) :
    last.index ≤ front.length := by
  refine Nat.le_of_not_lt fun beyond => ?_
  obtain ⟨token, found, other⟩ := passes.unmarked front.length (Nat.zero_le _) beyond
  rw [List.getElem?_append_right (Nat.le_refl _), Nat.sub_self, List.getElem?_cons_zero] at found
  cases found
  exact other ended

/-- A list of tokens is read alike with and without its end marker, nothing behind a marker counts, and the descent that
    reads the list stops in front of it. -/
theorem end_marker_only_stops (limit : Nat) :
    (∀ source lexed, tokenize source = .ok lexed → ∃ front marker, lexed.tokens = front ++ [marker] ∧ marker.value = .eof ∧
      Expr.ofTokens limit front =
        (Expr.ofTokens limit lexed.tokens).mapError fun error =>
          if error.offset = marker.offset then error.moveTo (Cursor.endOffset front) else error) ∧
    (∀ front marker back, marker.value = .eof →
      Expr.ofTokens limit (front ++ marker :: back) = Expr.ofTokens limit (front ++ [marker])) ∧
    (∀ tokens, ∃ last : Descent,
      (Descent.parse limit tokens =
        match Expr.ofTokens limit tokens with
        | .ok expr => .ok expr last
        | .error error => .error error last) ∧
      ∀ front marker back, tokens = front ++ marker :: back → marker.value = .eof →
        last.cursor.index ≤ front.length) := by
  refine ⟨fun source lexed read => ?_, fun front marker back ended => ?_, fun tokens => ?_⟩
  · obtain ⟨front, marker, whole, ended, free, apart⟩ := tokenize_ended read
    refine ⟨front, marker, whole, ?_, ?_⟩
    · cases shown : marker.value <;> first | rfl | simp [shown, Token.isEof] at ended
    · rw [whole]
      exact Expr.ofTokens_without_marker free ended apart
  · exact Reader.run_marked (congrArg Token.isEof ended) _ _ _ _ _
  · obtain ⟨last, passes, parsed⟩ := Descent.parse_reads limit tokens
    refine ⟨last, parsed, fun front marker back whole ended => ?_⟩
    rw [whole] at passes
    exact passes.index_le ended

/-- The blank before the end is where the two errors lie apart. -/
theorem end_marker_only_stops_dangling :
    ∃ lexed front marker, tokenize "tag.a and " = .ok lexed ∧ lexed.tokens = front ++ [marker] ∧
      Expr.ofTokens 64 lexed.tokens = .error (.unexpectedToken 10 "end of input" "expression") ∧
      Expr.ofTokens 64 front = .error (.unexpectedToken 9 "end of input" "expression") ∧
      ∀ back, Expr.ofTokens 64 (front ++ marker :: back) = .error (.unexpectedToken 10 "end of input" "expression") := by
  have seen : (tokenize "tag.a and ").toOption.map (fun lexed => (lexed.tokens.getLast?.map (·.offset),
      Cursor.endOffset lexed.tokens.dropLast, Expr.ofTokens 64 lexed.tokens)) =
      some (some 10, 9, .error (.unexpectedToken 10 "end of input" "expression")) := by
    decide +kernel
  obtain ⟨lexed, read, same⟩ := exists_tokenize seen
  obtain ⟨harmless, behind, -⟩ := end_marker_only_stops 64
  obtain ⟨front, marker, whole, ended, moved⟩ := harmless _ lexed read
  simp only [whole, List.getLast?_concat, List.dropLast_concat, Option.map_some, Prod.mk.injEq, Option.some.injEq] at same
  obtain ⟨stop, last, failed⟩ := same
  refine ⟨lexed, front, marker, read, whole, whole ▸ failed, ?_, fun back => (behind front marker back ended).trans failed⟩
  rw [moved, whole, failed, stop, last]
  rfl

end TagQuery
