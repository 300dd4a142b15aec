import TagQuery.Proofs.LexicalGrammar

namespace TagQuery

structure Layout.Item where
  gap : List Char
  lexeme : List Char
  token : Token
deriving DecidableEq, Repr

/-- A source taken apart: its lexemes, each after its gap, and the gap at the end. -/
structure Layout where
  items : List Layout.Item
  tail : List Char
deriving DecidableEq, Repr

namespace Layout

open Lexer Text

def source (layout : Layout) : List Char :=
  layout.items.foldr (fun item following => item.gap ++ (item.lexeme ++ following)) layout.tail

def tokens (layout : Layout) : List Token := layout.items.map (·.token)

def IsGap (text : List Char) : Prop := text.all isGap = true

/-- A source taken apart as the lexical grammar wants it. -/
inductive Fits : Layout → Prop
  | ended {tail : List Char} (blank : IsGap tail) : Fits ⟨[], tail⟩
  | item {item : Item} {items : List Item} {tail : List Char} (blank : IsGap item.gap)
      (form : IsLexeme item.lexeme item.token) (ends : Ends item.token (source ⟨items, tail⟩))
      (rest : Fits ⟨items, tail⟩) : Fits ⟨item :: items, tail⟩

theorem source_cons (item : Item) (items : List Item) (tail : List Char) :
    source ⟨item :: items, tail⟩ = item.gap ++ (item.lexeme ++ source ⟨items, tail⟩) := rfl

theorem not_gap_of_lexeme {lexeme : List Char} {token : Token} (form : IsLexeme lexeme token)
    (gap following : List Char) : ¬ IsGap (gap ++ (lexeme ++ following)) := by
  intro blank
  have all := (List.all_append.symm.trans blank : (gap.all isGap && (lexeme ++ following).all isGap) = true)
  rw [Bool.and_eq_true] at all
  have starts := startsWith_of_all (List.append_ne_nil_of_left_ne_nil form.ne_nil following) all.2
  rw [form.no_gap following] at starts
  cases starts

theorem Fits.unique {first second : Layout} (left : first.Fits) (right : second.Fits)
    (same : first.source = second.source) : first = second := by
  -- the gap in front is the longest one, and after it `Ends` fixes where the first lexeme stops
  induction left generalizing second with
  | @ended tail blank =>
    cases right with
    | ended => exact congrArg (Layout.mk []) same
    | @item item items other _ form =>
      have text : tail = item.gap ++ (item.lexeme ++ source ⟨items, other⟩) := same
      rw [text] at blank
      exact absurd blank (not_gap_of_lexeme form _ _)
  | @item item items tail blank form ends rest ih =>
    cases right with
    | @ended other blank' =>
      have text : item.gap ++ (item.lexeme ++ source ⟨items, tail⟩) = other := same
      rw [← text] at blank'
      exact absurd blank' (not_gap_of_lexeme form _ _)
    | @item item' items' tail' blank' form' ends' rest' =>
      rw [source_cons, source_cons] at same
      have gaps := congrArg (List.takeWhile isGap) same
      rw [takeWhile_run blank (form.no_gap _), takeWhile_run blank' (form'.no_gap _)] at gaps
      rw [gaps, List.append_cancel_left_eq] at same
      obtain ⟨lexemes, sources, tokens⟩ := form.unique same ends form' ends'
      obtain ⟨gap, lexeme, token⟩ := item
      cases gaps
      cases lexemes
      cases tokens
      cases ih rest' sources
      rfl

def Item.stop (item : Item) (place : Position) : Position := (place.advanceOver item.gap).advanceOver item.lexeme

def Item.placed (item : Item) (place : Position) : Spanned Token :=
  ⟨item.token, ⟨place.advanceOver item.gap, item.stop place⟩⟩

def placedItems (tail : List Char) : Position → List Item → List (Spanned Token)
  | place, [] => [⟨.eof, .emptyAt (place.advanceOver tail)⟩]
  | place, item :: items => item.placed place :: placedItems tail (item.stop place) items

def lexed (layout : Layout) (place : Position) (counts : TokenCounts) : Lexed :=
  ⟨placedItems layout.tail place layout.items,
    layout.items.foldl (fun counts item => counts.record item.token) counts⟩

theorem placedItems_values (tail : List Char) (place : Position) (items : List Item) :
    (placedItems tail place items).map (·.value) = items.map (·.token) ++ [.eof] := by
  induction items generalizing place with
  | nil => rfl
  | cons item items ih => simp [placedItems, Item.placed, ih]

end Layout

namespace Scanner

open Lexer Layout

theorem record_total {text : List Char} {token : Token} (form : IsLexeme text token) (counts : TokenCounts) :
    (counts.record token).total = counts.total + 1 := by
  cases form <;> rfl

theorem step_finished {scanner : Scanner} (blank : IsGap scanner.rest) :
    scanner.step = .finished ⟨.eof, .emptyAt (scanner.position.advanceOver scanner.rest)⟩ := by
  have gap : Piece.while Text.isGap (scanner.rest ++ []) = ⟨scanner.rest, []⟩ := Piece.while_run blank rfl
  rw [List.append_nil] at gap
  simp only [step, gap]

theorem step_item {scanner : Scanner} {item : Item} {following : List Char}
    (within : scanner.counts.total < Limits.tokens) (blank : IsGap item.gap) (form : IsLexeme item.lexeme item.token)
    (ends : Ends item.token following) (text : scanner.rest = item.gap ++ (item.lexeme ++ following)) :
    scanner.step = .token (item.placed scanner.position)
      ⟨following, item.stop scanner.position, scanner.counts.record item.token⟩ := by
  have gap : Piece.while Text.isGap scanner.rest = ⟨item.gap, item.lexeme ++ following⟩ := by
    rw [text, Piece.while_run blank (form.no_gap following)]
  have nonempty := form.ne_nil
  obtain ⟨_, lexeme, token⟩ := item
  cases lexeme with
  | nil => exact absurd rfl nonempty
  | cons first lexeme =>
    have read (offset : Nat) :
        Lexer.lexeme offset first (lexeme ++ following) = .ok ⟨token, first :: lexeme, following⟩ :=
      lexeme_ok_iff.mpr ⟨rfl, form, ends⟩
    simp only [step, gap, List.cons_append, read]
    rw [if_neg (Nat.not_le.mpr within)]
    rfl

theorem step_cases (scanner : Scanner) :
    IsGap scanner.rest ∨
      (∃ (item : Item) (following : List Char), IsGap item.gap ∧ IsLexeme item.lexeme item.token ∧
        Ends item.token following ∧ scanner.rest = item.gap ++ (item.lexeme ++ following) ∧ scanner.counts.total < Limits.tokens) ∨
      ∃ error, scanner.step = .failed error := by
  let start := scanner.position.advanceOver (Piece.while Text.isGap scanner.rest).taken
  have split := Piece.while_append Text.isGap scanner.rest
  have blank := Piece.while_all Text.isGap scanner.rest
  cases rest : (Piece.while Text.isGap scanner.rest).rest with
  | nil =>
    rw [rest, List.append_nil] at split
    exact Or.inl (show List.all _ _ = true from split ▸ blank)
  | cons first rest' =>
    by_cases full : Limits.tokens ≤ scanner.counts.total
    · refine Or.inr (Or.inr ⟨.tooManyTokens start.offset (scanner.counts.total + 1), ?_⟩)
      simp only [step, rest]
      rw [if_pos full]
    · cases read : Lexer.lexeme start.offset first rest' with
      | error error =>
        refine Or.inr (Or.inr ⟨error, ?_⟩)
        simp only [start] at read
        simp only [step, rest, read]
        rw [if_neg full]
      | ok found =>
        obtain ⟨whole, form, ends⟩ := lexeme_ok_iff.mp read
        refine Or.inr (Or.inl ⟨⟨_, found.taken, found.token⟩, found.rest, blank, form, ends, ?_,
          Nat.lt_of_not_le full⟩)
        rw [whole, ← rest, split]

theorem run_finished {scanner : Scanner} {marker : Spanned Token} (finished : scanner.step = .finished marker) :
    scanner.run = .ok ⟨[marker], scanner.counts⟩ := by
  rw [run]
  split
  · rename_i other same
    obtain rfl := Step.finished.inj (finished.symm.trans same)
    rfl
  · rename_i error same
    cases finished.symm.trans same
  · rename_i token next same
    cases finished.symm.trans same

theorem run_failed {scanner : Scanner} {error : LexError} (failed : scanner.step = .failed error) :
    scanner.run = .error error := by
  rw [run]
  split
  · rename_i marker same
    cases failed.symm.trans same
  · rename_i other same
    obtain rfl := Step.failed.inj (failed.symm.trans same)
    rfl
  · rename_i token next same
    cases failed.symm.trans same

theorem run_token {scanner next : Scanner} {token : Spanned Token} (read : scanner.step = .token token next) :
    scanner.run =
      match next.run with
      | .ok lexed => .ok { lexed with tokens := token :: lexed.tokens }
      | .error error => .error error := by
  rw [run]
  split
  · rename_i marker same
    cases read.symm.trans same
  · rename_i error same
    cases read.symm.trans same
  · rename_i token' next' same
    obtain ⟨rfl, rfl⟩ := Step.token.inj (read.symm.trans same)
    rfl

theorem run_of_layout {layout : Layout} (fits : layout.Fits) (scanner : Scanner) (text : layout.source = scanner.rest)
    (within : scanner.counts.total + layout.items.length ≤ Limits.tokens) :
    scanner.run = .ok (layout.lexed scanner.position scanner.counts) := by
  induction fits generalizing scanner with
  | @ended tail blank =>
    obtain rfl : tail = scanner.rest := text
    rw [run_finished (step_finished blank)]
    rfl
  | @item item items tail blank form ends rest ih =>
    rw [List.length_cons] at within
    have count := record_total form scanner.counts
    have step := step_item (by omega) blank form ends text.symm
    rw [run_token step, ih _ rfl (by simp only [count]; omega)]
    rfl

theorem layout_of_run (scanner : Scanner) (lexed : Lexed) (read : scanner.run = .ok lexed)
    (bounded : scanner.counts.total ≤ Limits.tokens) :
    ∃ layout : Layout, layout.Fits ∧ layout.source = scanner.rest ∧
      scanner.counts.total + layout.items.length ≤ Limits.tokens := by
  -- by the length of the text that is left, which every step to a token shortens
  rcases step_cases scanner with blank | ⟨item, following, blank, form, ends, text, within⟩ | ⟨error, failed⟩
  · exact ⟨⟨[], scanner.rest⟩, .ended blank, rfl, bounded⟩
  · have step := step_item within blank form ends text
    have shorter := step_rest_length step
    have count := record_total form scanner.counts
    rw [run_token step] at read
    split at read
    · rename_i rest result
      obtain ⟨layout, fits, same, few⟩ := layout_of_run _ rest result (by simp only [count]; omega)
      obtain ⟨items, tail⟩ := layout
      have goes : Ends item.token (source ⟨items, tail⟩) := by
        rw [same]
        exact ends
      refine ⟨⟨item :: items, tail⟩, .item blank form goes fits, ?_, ?_⟩
      · rw [source_cons, same, text]
      · simp only [count] at few
        simp only [List.length_cons]
        omega
    · cases read
  · rw [run_failed failed] at read
    cases read
termination_by scanner.rest.length

end Scanner

open Layout

theorem tokenize_ok_iff_layout (source : String) (lexed : Lexed) :
    tokenize source = .ok lexed ↔ ∃ layout : Layout, layout.Fits ∧ layout.source = source.toList ∧
      layout.items.length ≤ Limits.tokens ∧ lexed = layout.lexed .start {} := by
  constructor
  · intro read
    obtain ⟨layout, fits, text, few⟩ := Scanner.layout_of_run _ lexed read (Nat.zero_le _)
    rw [show (Scanner.ofSource source).counts.total = 0 from rfl, Nat.zero_add] at few
    have same := Scanner.run_of_layout fits (.ofSource source) text
      (by rw [show (Scanner.ofSource source).counts.total = 0 from rfl, Nat.zero_add]; exact few)
    rw [show (Scanner.ofSource source).run = .ok lexed from read] at same
    exact ⟨layout, fits, text, few, Except.ok.inj same⟩
  · rintro ⟨layout, fits, text, few, rfl⟩
    exact Scanner.run_of_layout fits (.ofSource source) text
      (by rw [show (Scanner.ofSource source).counts.total = 0 from rfl, Nat.zero_add]; exact few)

theorem exists_tokenize {α : Type} {source : String} {view : Lexed → α} {seen : α}
    (evaluated : (tokenize source).toOption.map view = some seen) : ∃ lexed, tokenize source = .ok lexed ∧ view lexed = seen := by
  cases read : tokenize source with
  | error error =>
    rw [read] at evaluated
    cases evaluated
  | ok lexed =>
    rw [read] at evaluated
    exact ⟨lexed, rfl, Option.some.inj evaluated⟩

/-- The lexer accepts the sources that can be taken apart into gaps and lexemes, with one token for each
    lexeme, and no source can be taken apart in two ways. -/
theorem tokenize_accepts_lexical_grammar (source : String) :
    (∀ tokens : List Token, (∃ lexed, tokenize source = .ok lexed ∧ lexed.tokens.map (·.value) = tokens) ↔
      ∃ layout : Layout, layout.Fits ∧ layout.source = source.toList ∧ layout.items.length ≤ 8192 ∧
        tokens = layout.tokens ++ [.eof]) ∧
    (∀ first second : Layout, first.Fits → second.Fits → first.source = source.toList →
      second.source = source.toList → first = second) := by
  refine ⟨fun tokens => ⟨?_, ?_⟩, fun first second left right text text' =>
    left.unique right (text.trans text'.symm)⟩
  · rintro ⟨lexed, read, rfl⟩
    obtain ⟨layout, fits, text, few, rfl⟩ := (tokenize_ok_iff_layout source lexed).mp read
    exact ⟨layout, fits, text, few, placedItems_values _ _ _⟩
  · rintro ⟨layout, fits, text, few, rfl⟩
    exact ⟨_, (tokenize_ok_iff_layout source _).mpr ⟨layout, fits, text, few, rfl⟩, placedItems_values _ _ _⟩

theorem tokenize_number_before_point :
    ∃ lexed, tokenize "NOT tag.-1.5." = .ok lexed ∧ lexed.tokens.map (·.value) =
      [.keyword .not, .word "tag", .dot, .number "-1.5" (.ofBits 0xbff8000000000000), .dot, .eof] := by
  have value : Number.literal? "-1.5".toList = some (.ofBits 0xbff8000000000000) := by
    rw [Number.literal?_of_isNumeral (by decide)]
    have bits : (Number.numeralDecimal "-1.5".toList).bits = 0x3ff8000000000000 := by decide +kernel
    rw [Number.numeralValue, Number.Decimal.toFloat, bits]
    rfl
  refine ((tokenize_accepts_lexical_grammar "NOT tag.-1.5.").1 _).mpr ⟨⟨[
    ⟨[], "NOT".toList, .keyword .not⟩, ⟨[' '], "tag".toList, .word "tag"⟩, ⟨[], ['.'], .dot⟩,
    ⟨[], "-1.5".toList, .number "-1.5" (.ofBits 0xbff8000000000000)⟩, ⟨[], ['.'], .dot⟩], []⟩, ?_, by decide, by decide,
    rfl⟩
  refine .item rfl (.keyword (by decide) (by decide)) rfl ?_
  refine .item rfl (.word (by decide) (by decide) (fun joining => by cases joining <;> decide)) rfl ?_
  refine .item rfl .dot trivial ?_
  refine .item rfl (Lexer.isLexeme_literal value) ⟨rfl, ?_⟩ ?_
  · rintro rest same
    obtain ⟨-, rfl⟩ := List.cons.inj same
    rfl
  · exact .item rfl .dot trivial (.ended rfl)

end TagQuery
