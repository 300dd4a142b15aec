import TagQuery.Proofs.TokenPlaces

namespace TagQuery

open Lexer Layout Text

namespace Lexer

theorem word_error {offset : Nat} {text : List Char} {error : LexError} (refused : word offset text = .error error) :
    ∃ length, error = .wordTooLong offset length := by
  simp only [word] at refused
  split at refused
  · cases refused
    exact ⟨_, rfl⟩
  · cases refused

theorem numeral_error {offset : Nat} {text : List Char} {error : LexError}
    (refused : numeral offset text = .error error) : ∃ number, error = .invalidNumber offset number := by
  simp only [numeral] at refused
  split at refused
  · split at refused
    · cases refused
    · cases refused
      exact ⟨_, rfl⟩
  · cases refused
    exact ⟨_, rfl⟩

theorem lexeme_error {offset : Nat} {first : Char} {rest : List Char} {error : LexError}
    (refused : lexeme offset first rest = .error error) :
    error.offset = offset ∧ ∀ place c, error = .unexpectedCharacter place c → c = first := by
  unfold lexeme at refused
  split at refused
  · obtain ⟨length, rfl⟩ := word_error refused
    exact ⟨rfl, nofun⟩
  · split at refused
    · obtain ⟨number, rfl⟩ := numeral_error refused
      exact ⟨rfl, nofun⟩
    · split at refused
      · cases refused
      · split at refused
        · cases refused
        · split at refused
          · cases refused
          · cases refused
            refine ⟨rfl, ?_⟩
            intro place c same
            cases same
            rfl

theorem startsWith_left {test : Char → Bool} {text rest : List Char} (stops : startsWith test (text ++ rest) = false) :
    startsWith test text = false := by
  cases text with
  | nil => rfl
  | cons c text => exact stops

theorem Ends.of_append {token : Token} {text rest : List Char} (ends : Ends token (text ++ rest)) : Ends token text := by
  cases token with
  | word | keyword => exact startsWith_left ends
  | number =>
    obtain ⟨stops, point⟩ := ends
    refine ⟨startsWith_left stops, ?_⟩
    intro tail whole
    subst whole
    exact startsWith_left (point (tail ++ rest) rfl)
  | dot | opening | closing | eof => trivial

end Lexer

theorem Position.advanceOver_append (place : Position) (front back : List Char) :
    place.advanceOver (front ++ back) = (place.advanceOver front).advanceOver back :=
  List.foldl_append

namespace Layout

def placedTokens : Position → List Item → List (Spanned Token)
  | _, [] => []
  | place, item :: items => item.placed place :: placedTokens (item.stop place) items

theorem placedTokens_length (place : Position) (items : List Item) : (placedTokens place items).length = items.length := by
  induction items generalizing place with
  | nil => rfl
  | cons item items ih => rw [placedTokens, List.length_cons, List.length_cons, ih]

theorem advanceOver_source (place : Position) (item : Item) (items : List Item) (tail : List Char) :
    place.advanceOver (source ⟨item :: items, tail⟩) = (item.stop place).advanceOver (source ⟨items, tail⟩) := by
  rw [source_cons, Position.advanceOver_append, Position.advanceOver_append, Item.stop]

theorem placedItems_eq (tail : List Char) (place : Position) (items : List Item) :
    placedItems tail place items =
      placedTokens place items ++ [⟨.eof, .emptyAt (place.advanceOver (source ⟨items, tail⟩))⟩] := by
  induction items generalizing place with
  | nil => rfl
  | cons item items ih => rw [placedItems, placedTokens, ih, advanceOver_source, List.cons_append]

end Layout

namespace TokenFeed

def items : Nat → TokenFeed → List (Except LexError (Spanned Token))
  | 0, _ => []
  | calls + 1, feed => feed.next.1.toList ++ items calls feed.next.2

theorem items_finished (calls : Nat) (scanner : Scanner) : items calls ⟨scanner, true⟩ = [] := by
  induction calls with
  | zero => rfl
  | succ calls ih => exact ih

theorem items_failed {scanner : Scanner} {error : LexError} (failed : scanner.step = .failed error) (calls : Nat) :
    items (calls + 1) ⟨scanner, false⟩ = [.error error] := by
  have last : next ⟨scanner, false⟩ = (some (.error error), ⟨scanner, true⟩) := by
    simp [next, failed]
  rw [items, last, items_finished]
  rfl

theorem items_token {scanner following : Scanner} {token : Spanned Token} (read : scanner.step = .token token following)
    (calls : Nat) : items (calls + 1) ⟨scanner, false⟩ = .ok token :: items calls ⟨following, false⟩ := by
  have first : next ⟨scanner, false⟩ = (some (.ok token), ⟨following, false⟩) := by
    simp [next, read]
  rw [items, first]
  rfl

end TokenFeed

namespace Scanner

/-- How a scanner comes to an error: it reads the text of a layout and stops before `rest`. -/
structure Halts (scanner : Scanner) (error : LexError) (layout : Layout) (rest : List Char) : Prop where
  fits : layout.Fits
  text : scanner.rest = layout.source ++ rest
  few : scanner.counts.total + layout.items.length ≤ Limits.tokens
  offset : error.offset = (scanner.position.advanceOver layout.source).offset
  character : ∀ place c, error = .unexpectedCharacter place c → rest.head? = some c
  handed : ∀ calls, layout.items.length < calls →
    TokenFeed.items calls ⟨scanner, false⟩ = (placedTokens scanner.position layout.items).map .ok ++ [.error error]

theorem step_failed {scanner : Scanner} {error : LexError} (failed : scanner.step = .failed error) :
    ∃ gap first rest, IsGap gap ∧ scanner.rest = gap ++ first :: rest ∧
      error.offset = (scanner.position.advanceOver gap).offset ∧
      ∀ place c, error = .unexpectedCharacter place c → c = first := by
  have whole := Piece.while_append Text.isGap scanner.rest
  have blank := Piece.while_all Text.isGap scanner.rest
  simp only [step] at failed
  split at failed
  · cases failed
  · rename_i first rest same
    rw [same] at whole
    refine ⟨_, first, rest, blank, whole.symm, ?_⟩
    split at failed
    · cases failed
      refine ⟨rfl, ?_⟩
      intro place c same
      cases same
    · split at failed
      · rename_i fault refused
        cases failed
        exact lexeme_error refused
      · cases failed

theorem halts_of_failed {scanner : Scanner} {error : LexError} (failed : scanner.step = .failed error)
    (bounded : scanner.counts.total ≤ Limits.tokens) : ∃ gap rest, scanner.Halts error ⟨[], gap⟩ rest := by
  obtain ⟨gap, first, rest, blank, text, offset, character⟩ := step_failed failed
  refine ⟨gap, first :: rest, .ended blank, text, bounded, offset, ?_, ?_⟩
  · intro place c unexpected
    rw [character place c unexpected]
    rfl
  · intro calls some
    obtain ⟨more, rfl⟩ := Nat.exists_eq_add_of_le' some
    exact TokenFeed.items_failed failed more

theorem Halts.of_item {scanner : Scanner} {item : Item} {following rest : List Char} {layout : Layout} {error : LexError}
    (within : scanner.counts.total < Limits.tokens) (blank : IsGap item.gap) (form : IsLexeme item.lexeme item.token)
    (ends : Ends item.token following) (text : scanner.rest = item.gap ++ (item.lexeme ++ following))
    (halts : Halts ⟨following, item.stop scanner.position, scanner.counts.record item.token⟩ error layout rest) :
    scanner.Halts error ⟨item :: layout.items, layout.tail⟩ rest := by
  have step := step_item within blank form ends text
  have count := record_total form scanner.counts
  obtain ⟨fits, whole, few, offset, character, handed⟩ := halts
  obtain rfl : following = layout.source ++ rest := whole
  refine ⟨.item blank form ends.of_append fits, ?_, ?_, ?_, character, ?_⟩
  · rw [text, source_cons, List.append_assoc, List.append_assoc]
  · simp only [count] at few
    rw [List.length_cons]
    omega
  · rw [advanceOver_source]
    exact offset
  · intro calls enough
    rw [List.length_cons] at enough
    obtain ⟨more, rfl⟩ := Nat.exists_eq_add_of_le' (show 1 ≤ calls by omega)
    rw [TokenFeed.items_token step, handed more (by omega)]
    rfl

theorem halts_of_run (scanner : Scanner) (error : LexError) (failed : scanner.run = .error error)
    (bounded : scanner.counts.total ≤ Limits.tokens) : ∃ layout rest, scanner.Halts error layout rest := by
  -- by the length of the text that is left, which every step to a token shortens
  rcases step_cases scanner with blank | ⟨item, following, blank, form, ends, text, within⟩ | ⟨fault, stopped⟩
  · rw [run_finished (step_finished blank)] at failed
    cases failed
  · have step := step_item within blank form ends text
    have shorter := step_rest_length step
    have count := record_total form scanner.counts
    rw [run_token step] at failed
    split at failed
    · cases failed
    · rename_i fault result
      cases failed
      obtain ⟨layout, rest, halts⟩ := halts_of_run _ error result (by simp only [count]; omega)
      exact ⟨_, rest, halts.of_item within blank form ends text⟩
  · rw [run_failed stopped] at failed
    cases failed
    obtain ⟨gap, rest, halts⟩ := halts_of_failed stopped bounded
    exact ⟨_, rest, halts⟩
termination_by scanner.rest.length

end Scanner

/-- Whether an error stands between two parts of a source, of which the first lexes on its own to the tokens that were
    handed out before the error. -/
structure LexError.Interrupts (error : LexError) (source : String) (before rest : List Char) : Prop where
  whole : source.toList = before ++ rest
  offset : error.offset = byteLength before
  clean : ∃ lexed tokens, tokenize (String.ofList before) = .ok lexed ∧
    lexed.tokens = tokens ++ [⟨.eof, .emptyAt (.after before)⟩] ∧
    ∀ calls, tokens.length < calls → (TokenFeed.ofSource source).items calls = tokens.map .ok ++ [.error error]
  character : ∀ place c, error = .unexpectedCharacter place c → rest.head? = some c

theorem interrupts_of_tokenize {source : String} {error : LexError} (failed : tokenize source = .error error) :
    ∃ before rest, error.Interrupts source before rest := by
  obtain ⟨layout, rest, fits, text, few, offset, character, handed⟩ :=
    Scanner.halts_of_run (.ofSource source) error failed (Nat.zero_le _)
  rw [show (Scanner.ofSource source).counts.total = 0 from rfl, Nat.zero_add] at few
  have before : Position.start.advanceOver layout.source = .after layout.source := Position.advanceOver_start layout.source
  refine ⟨layout.source, rest, text, ?_, ?_, character⟩
  · rw [offset]
    exact congrArg Position.offset before
  · refine ⟨layout.lexed .start {}, placedTokens .start layout.items, ?_, ?_, ?_⟩
    · rw [tokenize_ok_iff_layout, String.toList_ofList]
      exact ⟨layout, fits, rfl, few, rfl⟩
    · rw [← before]
      exact placedItems_eq layout.tail .start layout.items
    · intro calls enough
      rw [placedTokens_length] at enough
      exact handed calls enough

end TagQuery
