import TagQuery.Proofs.LexingStops
import TagQuery.Proofs.ParenMatching

namespace TagQuery

open Lexer Layout Text

namespace Reader

variable {limit : Nat} {reader : Reader} {token : Spanned Token} {error : ParseError}

theorem offset_of_checkDepth {offset : Nat} (refused : reader.checkDepth limit offset = .error error) :
    error.offset = offset := by
  unfold checkDepth at refused
  split at refused
  · cases refused
  · cases refused
    rfl

theorem offset_of_beginOperand (refused : reader.beginOperand limit token = .error error) :
    error.offset = token.offset := by
  unfold beginOperand at refused
  split at refused
  · exact offset_of_checkDepth refused
  · cases refused
  · split at refused
    · cases refused
    · cases refused
      rfl
  · cases refused
    rfl
  · cases refused
    rfl
  · split at refused
    · cases refused
      rfl
    · cases refused
      rfl
  all_goals
    cases refused
    rfl

theorem offset_of_afterOperand {operand : Expr} (refused : reader.afterOperand operand token = .error error) :
    error.offset = token.offset := by
  unfold afterOperand at refused
  split at refused
  · cases refused
  · cases refused
  · split at refused
    · cases refused
      rfl
    · cases refused
  · split at refused
    · cases refused
      rfl
    · cases refused
      rfl

theorem offset_of_readSegment {path : List String} (refused : reader.readSegment path token = .error error) :
    error.offset = token.offset := by
  unfold readSegment at refused
  split at refused
  · cases refused
    rfl
  · split at refused <;> cases refused

theorem offset_of_read (refused : reader.read limit token = .error error) :
    error.offset = token.offset ∨ reader.phase = .opened error.offset := by
  unfold Reader.read at refused
  split at refused
  case h_1 | h_2 => exact Or.inl (offset_of_beginOperand refused)
  case h_3 offset phase =>
    split at refused
    · cases refused
      exact Or.inr phase
    · cases checked : reader.checkDepth limit offset with
      | error fault =>
        rw [checked] at refused
        cases refused
        rw [offset_of_checkDepth checked]
        exact Or.inr phase
      | ok same =>
        rw [checked] at refused
        exact Or.inl (offset_of_beginOperand refused)
  case h_5 => exact Or.inl (offset_of_readSegment refused)
  case h_4 | h_7 | h_8 =>
    split at refused
    · cases refused
    · cases refused
      exact Or.inl rfl
  case h_6 | h_9 =>
    split at refused
    · cases refused
    · exact Or.inl (offset_of_afterOperand refused)
  case h_10 =>
    cases refused
    exact Or.inl rfl
  case h_11 => exact Or.inl (offset_of_afterOperand refused)

theorem Awaits.opened {parens : Unpartnered} {offset : Nat} (awaits : reader.Awaits parens)
    (phase : reader.phase = .opened offset) : ∃ token ∈ parens.waiting, token.offset = offset := by
  obtain ⟨enclosing, outer, around, same⟩ := awaits.entered offset phase
  obtain ⟨token, waiting, place, -⟩ := awaits.innermost around
  exact ⟨token, waiting, place.trans same⟩

theorem Awaits.offset_of_finish {parens : Unpartnered} {stop : Nat} (awaits : reader.Awaits parens)
    (within : reader.Within limit) (failed : reader.finish stop = .error error) :
    error.offset = stop ∨ ∃ token ∈ parens.waiting, token.offset = error.offset := by
  have ending := within.ending stop
  rw [failed] at ending
  cases ending with
  | unclosed enclosing outer around =>
    obtain ⟨token, waiting, place, -⟩ := awaits.innermost around
    exact Or.inr ⟨token, waiting, place⟩
  | opened offset phase => exact Or.inr (awaits.opened phase)
  | empty | operand | unexpected => exact Or.inl rfl

end Reader

namespace Expr

theorem offset_of_ofTokens {limit : Nat} {tokens : List (Spanned Token)} {error : ParseError}
    (marked : ∃ token ∈ tokens, token.value.isEof = true) (failed : ofTokens limit tokens = .error error) :
    ∃ token ∈ tokens, token.offset = error.offset := by
  cases stops_of_ofTokens failed with
  | refused front rest token last error whole free read present refusal outcome =>
    cases outcome
    subst whole
    have awaits := Reader.awaits_start.readAll read
    rcases Reader.offset_of_read refusal with here | phase
    · exact ⟨token, by simp, here.symm⟩
    · obtain ⟨opening, waiting, place⟩ := awaits.opened phase
      exact ⟨opening, List.mem_append_left _ (Unpartnered.mem_of_mem_waiting waiting), place⟩
  | ended front back last whole free read atEnd outcome =>
    subst whole
    have awaits := Reader.awaits_start.readAll read
    have within := (Reader.within_start _).readAll read
    rcases awaits.offset_of_finish within outcome.symm with here | ⟨opening, waiting, place⟩
    · cases back with
      | nil =>
        obtain ⟨marker, member, ended⟩ := marked
        rw [List.append_nil] at member
        rw [free marker member] at ended
        cases ended
      | cons marker back => exact ⟨marker, by simp, here.symm⟩
    · exact ⟨opening, List.mem_append_left _ (Unpartnered.mem_of_mem_waiting waiting), place⟩

end Expr

theorem Filter.compile_error_cases {limit : Nat} {source : String} {error : FilterError}
    (failed : compile limit source = .error error) :
    (∃ fault, error = .lexing fault ∧ tokenize source = .error fault) ∨
      (∃ fault lexed, error = .parsing fault ∧ tokenize source = .ok lexed ∧
        Expr.ofTokens limit lexed.tokens = .error fault) ∨
      ∃ fault, error = .validity fault := by
  rcases compile_cases limit source with ⟨lexed, expr, lexing, parsing⟩ | ⟨fault, lexing, refused⟩ |
    ⟨lexed, fault, lexing, parsing, refused⟩
  · rw [compile_of_parsed lexing parsing] at failed
    split at failed
    · cases failed
      exact Or.inr (Or.inr ⟨_, rfl⟩)
    · cases failed
  · cases failed.symm.trans refused
    exact Or.inl ⟨fault, rfl, lexing⟩
  · cases failed.symm.trans refused
    exact Or.inr (Or.inl ⟨fault, lexed, rfl, lexing, parsing⟩)

theorem token_offset_of_tokenize {source : String} {lexed : Lexed} {token : Spanned Token}
    (read : tokenize source = .ok lexed) (member : token ∈ lexed.tokens) :
    ∃ before rest, source.toList = before ++ rest ∧ byteLength before = token.offset := by
  obtain ⟨before, rest, whole, place⟩ := start_counts_of_tokenize read member
  refine ⟨before, rest, whole, ?_⟩
  rw [Spanned.offset, place]
  rfl

theorem tokenize_marked {source : String} {lexed : Lexed} (read : tokenize source = .ok lexed) :
    ∃ token ∈ lexed.tokens, token.value.isEof = true := by
  obtain ⟨layout, -, -, -, rfl⟩ := (tokenize_ok_iff_layout source lexed).mp read
  rw [Layout.lexed, placedItems_eq]
  exact ⟨_, List.mem_append_right _ (List.mem_singleton_self _), rfl⟩

/-- A source that does not compile has its fault between two of its characters: a lexical one after a text that lexes on
    its own, any other one at the beginning of a token. -/
theorem compile_errors_stand_in_source {limit : Nat} {source : String} {error : FilterError} {offset : Nat}
    (failed : Filter.compile limit source = .error error) (placed : error.offset? = some offset) :
    offset ≤ source.utf8ByteSize ∧
    ∃ before rest, source.toList = before ++ rest ∧ byteLength before = offset ∧
      (∀ fault, error = .lexing fault → fault.Interrupts source before rest) ∧
      (∀ fault, error = .parsing fault →
        ∃ lexed token, tokenize source = .ok lexed ∧ token ∈ lexed.tokens ∧ token.offset = offset) := by
  have inside {before rest : List Char} (whole : source.toList = before ++ rest) :
      byteLength before ≤ source.utf8ByteSize := by
    have length := byteLength_append before rest
    rw [← whole, byteLength_toList] at length
    omega
  rcases Filter.compile_error_cases failed with
    ⟨fault, rfl, lexing⟩ | ⟨fault, lexed, rfl, lexing, parsing⟩ | ⟨fault, rfl⟩
  · obtain ⟨before, rest, interrupts⟩ := interrupts_of_tokenize lexing
    obtain rfl : fault.offset = offset := Option.some.inj placed
    refine ⟨?_, before, rest, interrupts.whole, interrupts.offset.symm, ?_, nofun⟩
    · rw [interrupts.offset]
      exact inside interrupts.whole
    · intro other same
      cases same
      exact interrupts
  · obtain ⟨token, member, here⟩ := Expr.offset_of_ofTokens (tokenize_marked lexing) parsing
    obtain rfl : fault.offset = offset := Option.some.inj placed
    obtain ⟨before, rest, whole, length⟩ := token_offset_of_tokenize lexing member
    rw [here] at length
    refine ⟨?_, before, rest, whole, length, nofun, ?_⟩
    · rw [← length]
      exact inside whole
    · intro other same
      exact ⟨lexed, token, lexing, member, here⟩
  · cases placed

theorem compile_errors_stand_in_source_umlaut :
    Filter.compile 64 "tag.1.5 \nor ü" = .error (.lexing (.unexpectedCharacter 12 'ü')) ∧
    (∃ before rest, "tag.1.5 \nor ü".toList = before ++ rest ∧ byteLength before = 12 ∧
      (LexError.unexpectedCharacter 12 'ü').Interrupts "tag.1.5 \nor ü" before rest) ∧
    Filter.compile 64 "(tag.a" = .error (.parsing (.unbalancedParens 0)) ∧
    ∃ lexed token, tokenize "(tag.a" = .ok lexed ∧ token ∈ lexed.tokens ∧ token.offset = 0 := by
  have unlexed : Filter.compile 64 "tag.1.5 \nor ü" = .error (.lexing (.unexpectedCharacter 12 'ü')) := by decide +kernel
  have unparsed : Filter.compile 64 "(tag.a" = .error (.parsing (.unbalancedParens 0)) := by decide +kernel
  obtain ⟨-, before, rest, whole, length, interrupted, -⟩ := compile_errors_stand_in_source unlexed rfl
  obtain ⟨-, _, _, -, -, -, stands⟩ := compile_errors_stand_in_source unparsed rfl
  exact ⟨unlexed, ⟨before, rest, whole, length, interrupted _ rfl⟩, unparsed, stands _ rfl⟩

end TagQuery
