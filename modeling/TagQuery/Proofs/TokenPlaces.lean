import TagQuery.Proofs.Layout
import TagQuery.Proofs.Places

namespace TagQuery

open Lexer Text

/-- Whether a place is between two characters of a text and counts what is before it. -/
def Position.Counts (place : Position) (text : List Char) : Prop :=
  ∃ before rest, text = before ++ rest ∧ place = .after before

def Position.Fits32 (place : Position) : Prop := place.line < 2 ^ 32 ∧ place.column < 2 ^ 32

theorem Position.Counts.fits32 {place : Position} {source : String} (counts : place.Counts source.toList)
    (short : source.utf8ByteSize + 1 < 2 ^ 32) : place.Fits32 := by
  obtain ⟨before, rest, whole, rfl⟩ := counts
  have bound := Position.line_add_column_le before
  have bytes := byteLength_append before rest
  rw [← whole, byteLength_toList] at bytes
  have line : 1 ≤ (Position.after before).line := Nat.le_add_right 1 _
  have column : 1 ≤ (Position.after before).column := Nat.le_add_right 1 _
  constructor <;> omega

def Span.Covers (span : Span) (byte : Nat) : Prop := span.start.offset ≤ byte ∧ byte < span.stop.offset

def Token.IsWrittenAs (token : Token) (written : List Char) : Prop :=
  match token with
  | .keyword joining => written.map Char.toLower = joining.text.toList
  | _ => written = token.text.toList

/-- The texts between spans and in them, one after the other, from a byte on. -/
def Span.restored (source : List Char) : Nat → List (Spanned Token) → List Char
  | _, [] => []
  | byte, token :: tokens =>
    (slice? source byte token.span.start.offset).getD [] ++
      (token.span.slice source ++ restored source token.span.stop.offset tokens)

theorem Lexer.IsLexeme.isWrittenAs {lexeme : List Char} {token : Token} (form : IsLexeme lexeme token) :
    token.IsWrittenAs lexeme := by
  cases form with
  | dot | opening | closing => rfl
  | keyword _ same => exact same
  | word | number => exact String.toList_ofList.symm

theorem Span.slice_after (front lexeme rest : List Char) :
    (Span.mk (.after front) (.after (front ++ lexeme))).slice (front ++ (lexeme ++ rest)) = lexeme := by
  have slice := slice?_append front lexeme rest
  rw [Span.slice, Position.after, Position.after, slice]
  rfl

theorem append_eq_append_cons {front back middle rest : List Char} {c : Char} (same : front ++ back = middle ++ c :: rest) :
    (∃ more, front = middle ++ c :: more) ∨ ∃ inner, middle = front ++ inner ∧ back = inner ++ c :: rest := by
  rcases List.append_eq_append_iff.mp same with ⟨inner, whole, last⟩ | ⟨more, whole, last⟩
  · exact Or.inr ⟨inner, whole, last⟩
  · cases more with
    | nil => exact Or.inr ⟨[], by rw [whole, List.append_nil, List.append_nil], last.symm⟩
    | cons first more =>
      obtain ⟨rfl, -⟩ := List.cons.inj last
      exact Or.inl ⟨more, whole⟩

namespace Layout

def Stands (text before : List Char) (token : Spanned Token) : Prop :=
  ∃ front lexeme rest, text = front ++ (lexeme ++ rest) ∧ byteLength before ≤ byteLength front ∧
    token.span = ⟨.after front, .after (front ++ lexeme)⟩ ∧ (token.value = .eof ∨ IsLexeme lexeme token.value)

theorem Item.stop_after (item : Item) (before : List Char) :
    item.stop (.after before) = .after (before ++ item.gap ++ item.lexeme) := by
  rw [Item.stop, Position.advanceOver_after, Position.advanceOver_after]

theorem Item.placed_after (item : Item) (before : List Char) :
    item.placed (.after before) =
      ⟨item.token, ⟨.after (before ++ item.gap), .after (before ++ item.gap ++ item.lexeme)⟩⟩ := by
  rw [Item.placed, Item.stop_after, Position.advanceOver_after]

theorem placedItems_cons (tail before : List Char) (item : Item) (items : List Item) :
    placedItems tail (.after before) (item :: items) =
      ⟨item.token, ⟨.after (before ++ item.gap), .after (before ++ item.gap ++ item.lexeme)⟩⟩ ::
        placedItems tail (.after (before ++ item.gap ++ item.lexeme)) items := by
  rw [placedItems, Item.placed_after, Item.stop_after]

theorem source_after (tail before : List Char) (item : Item) (items : List Item) :
    before ++ source ⟨item :: items, tail⟩ = before ++ item.gap ++ item.lexeme ++ source ⟨items, tail⟩ := by
  rw [source_cons, List.append_assoc, List.append_assoc]

theorem placedItems_getLast (tail before : List Char) (items : List Item) :
    (placedItems tail (.after before) items).getLast? =
      some ⟨.eof, .emptyAt (.after (before ++ source ⟨items, tail⟩))⟩ := by
  induction items generalizing before with
  | nil =>
    rw [placedItems, Position.advanceOver_after]
    rfl
  | cons item items ih => rw [placedItems_cons, List.getLast?_cons, ih, source_after, Option.getD_some]

section

variable {layout : Layout} (fits : layout.Fits) (before : List Char)
include fits

theorem Fits.stands : ∀ token ∈ placedItems layout.tail (.after before) layout.items,
    Stands (before ++ layout.source) before token := by
  induction fits generalizing before with
  | @ended tail blank =>
    intro token member
    obtain rfl := List.mem_singleton.mp member
    refine ⟨before ++ tail, [], [], ?_, ?_, ?_, Or.inl rfl⟩
    · rw [List.append_nil, List.append_nil]; rfl
    · rw [byteLength_append]; omega
    · rw [Position.advanceOver_after, List.append_nil]; rfl
  | @item item items tail blank form ends rest ih =>
    intro token member
    rw [placedItems_cons] at member
    have length := byteLength_append before item.gap
    have length' := byteLength_append (before ++ item.gap) item.lexeme
    rcases List.mem_cons.mp member with rfl | later
    · refine ⟨before ++ item.gap, item.lexeme, source ⟨items, tail⟩, ?_, by omega, rfl, Or.inr form⟩
      rw [source_after, List.append_assoc (before ++ item.gap)]
    · obtain ⟨front, lexeme, following, text, past, span, shape⟩ := ih _ token later
      exact ⟨front, lexeme, following, by rw [source_after, text], by omega, span, shape⟩

theorem Fits.ordered : (placedItems layout.tail (.after before) layout.items).Pairwise
    fun first second => first.span.stop.offset ≤ second.span.start.offset := by
  induction fits generalizing before with
  | ended => exact List.pairwise_singleton _ _
  | @item item items tail blank form ends rest ih =>
    rw [placedItems_cons, List.pairwise_cons]
    refine ⟨fun token later => ?_, ih _⟩
    obtain ⟨front, lexeme, following, text, past, span, shape⟩ := rest.stands _ token later
    rw [span]
    exact past

/-- Every token but the end marker takes some bytes, so no two tokens begin at one place. -/
theorem Fits.increasing : (placedItems layout.tail (.after before) layout.items).Pairwise
    fun first second => first.offset < second.offset := by
  induction fits generalizing before with
  | ended => exact List.pairwise_singleton _ _
  | @item item items tail blank form ends rest ih =>
    rw [placedItems_cons, List.pairwise_cons]
    refine ⟨fun token later => ?_, ih _⟩
    obtain ⟨front, lexeme, following, text, past, span, shape⟩ := rest.stands _ token later
    have length := byteLength_append (before ++ item.gap) item.lexeme
    have taken := byteLength_pos form.ne_nil
    rw [Spanned.offset, Spanned.offset, span]
    show byteLength (before ++ item.gap) < byteLength front
    omega

theorem Fits.uncovered {middle rest : List Char} {c : Char} {byte : Nat} (text : layout.source = middle ++ c :: rest)
    (least : byteLength (before ++ middle) ≤ byte) (greatest : byte < byteLength (before ++ middle) + c.utf8Size)
    (free : ∀ token ∈ placedItems layout.tail (.after before) layout.items, ¬ token.span.Covers byte) :
    isGap c = true := by
  induction fits generalizing before middle with
  | @ended tail blank =>
    have whole : tail = middle ++ c :: rest := text
    rw [IsGap, whole, List.all_append, List.all_cons, Bool.and_eq_true, Bool.and_eq_true] at blank
    exact blank.2.1
  | @item item items tail blank form ends fits ih =>
    rw [placedItems_cons] at free
    rw [source_cons] at text
    rcases append_eq_append_cons text with ⟨more, inGap⟩ | ⟨past, rfl, later⟩
    · rw [IsGap, inGap, List.all_append, List.all_cons, Bool.and_eq_true, Bool.and_eq_true] at blank
      exact blank.2.1
    · rcases append_eq_append_cons later with ⟨more, inLexeme⟩ | ⟨inner, rfl, last⟩
      · -- the first token covers the byte
        refine absurd ⟨?_, ?_⟩ (free _ List.mem_cons_self)
        · show byteLength (before ++ item.gap) ≤ byte
          rw [← List.append_assoc, byteLength_append] at least
          omega
        · show byte < byteLength (before ++ item.gap ++ item.lexeme)
          rw [inLexeme, byteLength_append (before ++ item.gap), byteLength_append past, byteLength]
          rw [← List.append_assoc, byteLength_append] at greatest
          omega
      · have assoc : before ++ (item.gap ++ (item.lexeme ++ inner)) = before ++ item.gap ++ item.lexeme ++ inner := by
          simp only [List.append_assoc]
        rw [assoc] at least greatest
        exact ih _ last least greatest fun token later => free token (List.mem_cons_of_mem _ later)

theorem Fits.restored {text : List Char} (whole : text = before ++ layout.source) :
    Span.restored text (byteLength before) (placedItems layout.tail (.after before) layout.items) = layout.source := by
  induction fits generalizing before with
  | @ended tail blank =>
    obtain rfl : text = before ++ tail := whole
    have gap := slice?_append before tail []
    have marker := Span.slice_after (before ++ tail) [] []
    simp only [List.append_nil] at gap marker
    rw [placedItems, Position.advanceOver_after, Span.restored, Span.emptyAt, marker]
    show (slice? (before ++ tail) (byteLength before) (byteLength (before ++ tail))).getD [] ++ ([] ++ []) = tail
    rw [gap, Option.getD_some, List.append_nil, List.append_nil]
  | @item item items tail blank form ends rest ih =>
    have gap := slice?_append before item.gap (item.lexeme ++ source ⟨items, tail⟩)
    have lexeme := Span.slice_after (before ++ item.gap) item.lexeme (source ⟨items, tail⟩)
    have later := ih (before ++ item.gap ++ item.lexeme) (by rw [whole, source_after])
    rw [← source_cons, ← whole] at gap
    rw [← List.append_assoc, ← source_after, ← whole] at lexeme
    rw [placedItems_cons, Span.restored, lexeme, source_cons]
    refine congrArg₂ (· ++ ·) ?_ (congrArg (item.lexeme ++ ·) later)
    show (slice? text (byteLength before) (byteLength (before ++ item.gap))).getD [] = item.gap
    rw [gap, Option.getD_some]

end

end Layout

open Layout

theorem tokenize_increasing {source : String} {lexed : Lexed} (read : tokenize source = .ok lexed) :
    lexed.tokens.Pairwise fun first second => first.offset < second.offset := by
  obtain ⟨layout, fits, -, -, rfl⟩ := (tokenize_ok_iff_layout source lexed).mp read
  exact fits.increasing []

theorem start_counts_of_tokenize {source : String} {lexed : Lexed} {token : Spanned Token}
    (read : tokenize source = .ok lexed) (member : token ∈ lexed.tokens) : token.span.start.Counts source.toList := by
  obtain ⟨layout, fits, text, -, rfl⟩ := (tokenize_ok_iff_layout source lexed).mp read
  obtain ⟨front, lexeme, rest, whole, -, span, -⟩ := fits.stands [] token member
  rw [List.nil_append, text] at whole
  refine ⟨front, lexeme ++ rest, whole, ?_⟩
  rw [span]

/-- The spans of the tokens of a source follow each other at true places, with their texts in them and
    blanks between them. -/
theorem tokens_tile_source {source : String} {lexed : Lexed} (read : tokenize source = .ok lexed) :
    (∀ token ∈ lexed.tokens, token.span.start.Counts source.toList ∧ token.span.stop.Counts source.toList ∧
      token.span.start.offset ≤ token.span.stop.offset) ∧
    lexed.tokens.Pairwise (fun first second => first.span.stop.offset ≤ second.span.start.offset) ∧
    (∀ before c rest byte, source.toList = before ++ c :: rest → byteLength before ≤ byte →
      byte < byteLength before + c.utf8Size → (∀ token ∈ lexed.tokens, ¬ token.span.Covers byte) → isGap c = true) ∧
    (∀ token ∈ lexed.tokens, token.value ≠ .eof → token.value.IsWrittenAs (token.span.slice source.toList)) ∧
    (∃ place, lexed.tokens.getLast? = some ⟨.eof, .emptyAt place⟩ ∧ place.offset = source.utf8ByteSize) ∧
    Span.restored source.toList 0 lexed.tokens = source.toList ∧
    (source.utf8ByteSize + 1 < 2 ^ 32 → ∀ token ∈ lexed.tokens, token.span.start.Fits32 ∧ token.span.stop.Fits32) := by
  obtain ⟨layout, fits, text, -, rfl⟩ := (tokenize_ok_iff_layout source lexed).mp read
  have stands := fits.stands []
  rw [List.nil_append, text] at stands
  have counts (token : Spanned Token) (member : token ∈ (layout.lexed .start {}).tokens) :
      token.span.start.Counts source.toList ∧ token.span.stop.Counts source.toList ∧
        token.span.start.offset ≤ token.span.stop.offset := by
    obtain ⟨front, lexeme, rest, whole, -, span, -⟩ := stands token member
    have length := byteLength_append front lexeme
    rw [span]
    refine ⟨⟨front, _, whole, rfl⟩, ⟨front ++ lexeme, rest, by rw [whole, List.append_assoc], rfl⟩, ?_⟩
    show byteLength front ≤ byteLength (front ++ lexeme)
    omega
  refine ⟨counts, fits.ordered [], fun before c rest byte split least greatest free => ?_,
    fun token member inner => ?_, ?_, ?_, fun short token member => ?_⟩
  · exact fits.uncovered [] (text.trans split) least greatest free
  · obtain ⟨front, lexeme, rest, whole, -, span, marker | form⟩ := stands token member
    · exact absurd marker inner
    · rw [span, whole, Span.slice_after]
      exact form.isWrittenAs
  · have last : (layout.lexed .start {}).tokens.getLast? = some ⟨.eof, .emptyAt (.after layout.source)⟩ :=
      placedItems_getLast layout.tail [] layout.items
    rw [text] at last
    exact ⟨_, last, byteLength_toList source⟩
  · have whole := fits.restored [] text.symm
    rwa [text] at whole
  · obtain ⟨start, stop, -⟩ := counts token member
    exact ⟨start.fits32 short, stop.fits32 short⟩

/-- Only the marker at the end shows a text that is not in the source. -/
theorem end_marker_not_written :
    ∃ lexed marker, tokenize "" = .ok lexed ∧ marker ∈ lexed.tokens ∧ marker.value.text = "<EOF>" ∧
      marker.span.slice "".toList = [] ∧ ¬ marker.value.IsWrittenAs (marker.span.slice "".toList) := by
  have read : (tokenize "").toOption.map (·.tokens) = some [⟨.eof, .emptyAt .start⟩] := by decide +kernel
  cases result : tokenize "" with
  | error error =>
    rw [result] at read
    cases read
  | ok lexed =>
    rw [result] at read
    have tokens : lexed.tokens = [⟨.eof, .emptyAt .start⟩] := Option.some.inj read
    refine ⟨lexed, ⟨.eof, .emptyAt .start⟩, rfl, ?_, rfl, rfl, ?_⟩
    · rw [tokens]
      exact List.mem_singleton_self _
    · show ¬ ([] : List Char) = "<EOF>".toList
      decide

theorem tokens_tile_source_lines :
    ∃ lexed, tokenize "tag.a\n  AND (tag.b)\r\n" = .ok lexed ∧
      lexed.tokens[3]? = some ⟨.keyword .and, ⟨⟨8, 2, 3⟩, ⟨11, 2, 6⟩⟩⟩ ∧
      lexed.tokens.getLast? = some ⟨.eof, .emptyAt ⟨21, 3, 1⟩⟩ ∧
      (∀ token ∈ lexed.tokens, token.span.start.Counts "tag.a\n  AND (tag.b)\r\n".toList) ∧
      lexed.tokens.Pairwise (fun first second => first.span.stop.offset ≤ second.span.start.offset) ∧
      Span.restored "tag.a\n  AND (tag.b)\r\n".toList 0 lexed.tokens = "tag.a\n  AND (tag.b)\r\n".toList := by
  have places : (tokenize "tag.a\n  AND (tag.b)\r\n").toOption.map
      (fun lexed => (lexed.tokens[3]?, lexed.tokens.getLast?)) =
        some (some ⟨.keyword .and, ⟨⟨8, 2, 3⟩, ⟨11, 2, 6⟩⟩⟩, some ⟨.eof, .emptyAt ⟨21, 3, 1⟩⟩) := by
    decide +kernel
  cases read : tokenize "tag.a\n  AND (tag.b)\r\n" with
  | error error =>
    rw [read] at places
    cases places
  | ok lexed =>
    rw [read] at places
    obtain ⟨third, last⟩ := Prod.mk.inj (Option.some.inj places)
    obtain ⟨counts, ordered, -, -, -, restored, -⟩ := tokens_tile_source read
    exact ⟨lexed, rfl, third, last, fun token member => (counts token member).1, ordered, restored⟩

end TagQuery
