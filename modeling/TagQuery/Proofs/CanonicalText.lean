import TagQuery.Proofs.CompiledValidity
import TagQuery.Proofs.DecimalText

namespace TagQuery

open Lexer Text

namespace Layout

/-- Whether a text can be taken apart into gaps and the lexemes of some tokens. -/
def Splits (text : List Char) (tokens : List Token) : Prop :=
  ∃ layout : Layout, layout.Fits ∧ layout.source = text ∧ layout.tokens = tokens

theorem splits_nil : Splits [] [] := ⟨⟨[], []⟩, .ended rfl, rfl, rfl⟩

theorem Splits.lexical {text : List Char} {tokens : List Token} (splits : Splits text tokens) :
    ∀ token ∈ tokens, token.IsLexical := by
  obtain ⟨layout, fits, -, rfl⟩ := splits
  exact fits.lexical

theorem Splits.item {gap lexeme following : List Char} {token : Token} {tokens : List Token} (blank : IsGap gap)
    (form : IsLexeme lexeme token) (ends : Ends token following) (rest : Splits following tokens) :
    Splits (gap ++ (lexeme ++ following)) (token :: tokens) := by
  obtain ⟨⟨items, tail⟩, fits, rfl, rfl⟩ := rest
  exact ⟨⟨⟨gap, lexeme, token⟩ :: items, tail⟩, .item blank form ends fits, rfl, rfl⟩

theorem Splits.peel {gap text : List Char} {token : Token} {tokens : List Token} (blank : IsGap gap)
    (starts : startsWith isGap text = false) (splits : Splits (gap ++ text) (token :: tokens)) :
    ∃ lexeme following, text = lexeme ++ following ∧ IsLexeme lexeme token ∧ Ends token following ∧
      Splits following tokens := by
  obtain ⟨⟨items, tail⟩, fits, whole, named⟩ := splits
  cases fits with
  | ended => cases named
  | @item item items _ blank' form ends rest =>
    obtain ⟨rfl, rfl⟩ := List.cons.inj named
    rw [source_cons] at whole
    have gaps := congrArg (List.takeWhile isGap) whole
    rw [takeWhile_run blank' (form.no_gap _), takeWhile_run blank starts] at gaps
    rw [gaps, List.append_cancel_left_eq] at whole
    exact ⟨item.lexeme, source ⟨items, tail⟩, whole.symm, form, ends, _, rest, rfl, rfl⟩

theorem Splits.peel_ended {gap lexeme following : List Char} {token first : Token} {tokens : List Token}
    (blank : IsGap gap) (form : IsLexeme lexeme token) (ends : Ends token following)
    (splits : Splits (gap ++ (lexeme ++ following)) (first :: tokens)) : Splits following tokens := by
  obtain ⟨lexeme', following', whole, form', ends', rest⟩ := splits.peel blank (form.no_gap following)
  obtain ⟨-, rfl, -⟩ := form.unique whole ends form' ends'
  exact rest

end Layout

namespace Lexer

theorem IsLexeme.text_eq {text : List Char} {token : Token} (form : IsLexeme text token)
    (exact : ∀ joining, token ≠ .keyword joining) : text = token.text.toList := by
  cases form with
  | dot | opening | closing => rfl
  | keyword => exact absurd rfl (exact _)
  | word | number => exact String.toList_ofList.symm

end Lexer

open Layout

theorem Layout.splits_cons_iff {gap following : List Char} {token : Token} {tokens : List Token} (blank : IsGap gap)
    (form : IsLexeme token.text.toList token) (exact : ∀ joining, token ≠ .keyword joining) :
    Splits (gap ++ (token.text.toList ++ following)) (token :: tokens) ↔
      Ends token following ∧ Splits following tokens := by
  constructor
  · intro splits
    obtain ⟨lexeme, following', whole, form', ends, rest⟩ := splits.peel blank (form.no_gap following)
    obtain rfl := form'.text_eq exact
    obtain rfl := List.append_cancel_left whole
    exact ⟨ends, rest⟩
  · rintro ⟨ends, rest⟩
    exact .item blank form ends rest

theorem Layout.splits_dot_iff (following : List Char) (tokens : List Token) :
    Splits ('.' :: following) (.dot :: tokens) ↔ Splits following tokens := by
  have dot := @splits_cons_iff [] following .dot tokens rfl .dot nofun
  exact dot.trans (and_iff_right trivial)

def Token.ofSegment (segment : String) : Token :=
  match Number.literal? segment.toList with
  | some value => .number segment value
  | none => .word segment

theorem Token.ofSegment_text (segment : String) : (ofSegment segment).text = segment := by
  unfold ofSegment
  split <;> rfl

theorem word_not_numeral {text : List Char} (form : IsWord text) : Number.literal? text = none := by
  cases read : Number.literal? text with
  | none => rfl
  | some value =>
    have starts := form.1
    rw [(numeral_starts (Number.isNumeral_of_literal? read)).2] at starts
    cases starts

theorem Token.IsLexical.ofSegment {token : Token} {segment : String} (lexical : token.IsLexical)
    (spelled : token.IsSegment segment) :
    token = Token.ofSegment segment ∧ IsLexeme segment.toList (Token.ofSegment segment) := by
  obtain ⟨text, form⟩ := lexical
  have found : token = Token.ofSegment segment := by
    cases form with
    | word form =>
      cases spelled
      rw [Token.ofSegment, String.toList_ofList, word_not_numeral form]
    | number form nearest =>
      cases spelled
      rw [Token.ofSegment, String.toList_ofList, Number.literal?_of_isNumeral form, nearest]
    | dot | opening | closing | keyword => cases spelled
  refine ⟨found, ?_⟩
  have exact : ∀ joining, token ≠ .keyword joining := by
    rintro joining rfl
    cases spelled
  have same := form.text_eq exact
  rw [found, Token.ofSegment_text] at same
  rw [← same, ← found]
  exact form

def TagPath.tokens (path : List String) : List Token := path.flatMap fun segment => [.dot, .ofSegment segment]

def TagPath.Lexical (path : TagPath) : Prop :=
  path.segments ≠ [] ∧ ∀ segment ∈ path.segments, IsLexeme segment.toList (.ofSegment segment)

def TagPath.source (path : List String) : List Char := path.flatMap fun segment => '.' :: segment.toList

theorem SpellsPath.eq_tokens {tokens : List Token} {path : List String} (spelled : SpellsPath tokens path)
    (lexical : ∀ token ∈ tokens, token.IsLexical) :
    tokens = TagPath.tokens path ∧ ∀ segment ∈ path, IsLexeme segment.toList (.ofSegment segment) := by
  induction spelled with
  | @first token segment spelled =>
    obtain ⟨same, form⟩ := (lexical token (by simp)).ofSegment spelled
    refine ⟨by rw [same]; rfl, fun other member => ?_⟩
    obtain rfl := List.mem_singleton.mp member
    exact form
  | @next tokens path token segment front spelled plain ih =>
    obtain ⟨before, forms⟩ := ih fun token member => lexical token (List.mem_append_left _ member)
    obtain ⟨same, form⟩ := (lexical token (by simp)).ofSegment spelled
    refine ⟨?_, fun other member => ?_⟩
    · rw [before, same, TagPath.tokens, TagPath.tokens, List.flatMap_append]
      rfl
    · rcases List.mem_append.mp member with inside | last
      · exact forms other inside
      · obtain rfl := List.mem_singleton.mp last
        exact form

namespace TagPath

/-- Whether every point between two segments is read back as a point. Between a number and a digit it
    is read as a part of the number. -/
def separated : List String → Bool
  | first :: second :: rest =>
    !(Number.isLiteral first.toList && startsWith Char.isDigit second.toList) && separated (second :: rest)
  | _ => true

theorem toList_text (path : TagPath) (some : path.segments ≠ []) : '.' :: path.text.toList = source path.segments := by
  obtain ⟨segments⟩ := path
  cases segments with
  | nil => exact absurd rfl some
  | cons first rest =>
    simp only [text]
    induction rest generalizing first with
    | nil => rw [String.intercalate_singleton, source, List.flatMap_singleton]
    | cons second rest ih =>
      have next := ih second (by simp)
      rw [String.intercalate_cons_cons, String.toList_append, String.toList_append]
      rw [source, List.flatMap_cons, ← source, ← next]
      simp

theorem source_cons_append (first : String) (rest : List String) (following : List Char) :
    source (first :: rest) ++ following = '.' :: (first.toList ++ (source rest ++ following)) := by
  rw [source, List.flatMap_cons, ← source, List.cons_append, List.cons_append, List.append_assoc]

theorem ends_ofSegment_point {first second : String} {following : List Char} (some : second.toList ≠ []) :
    Ends (.ofSegment first) ('.' :: (second.toList ++ following)) ↔
      (Number.isLiteral first.toList && startsWith Char.isDigit second.toList) = false := by
  rw [Token.ofSegment, ← Number.isSome_literal?]
  cases Number.literal? first.toList with
  | none => exact iff_of_true rfl rfl
  | some value =>
    rw [← startsWith_append Char.isDigit following some, Option.isSome_some, Bool.true_and]
    constructor
    · rintro ⟨-, places⟩
      exact places _ rfl
    · intro plain
      refine ⟨rfl, fun rest whole => ?_⟩
      obtain rfl := (List.cons.inj whole).2
      exact plain

theorem ends_ofSegment_of_stops {following : List Char} (stops : StopsNumber following) (segment : String) :
    Ends (.ofSegment segment) following := by
  rw [Token.ofSegment]
  split
  · exact stops
  · exact stops.1

theorem ofSegment_not_keyword (segment : String) (joining : Keyword) : Token.ofSegment segment ≠ .keyword joining := by
  rw [Token.ofSegment]
  split <;> nofun

theorem splits_iff_separated {path : List String}
    (forms : ∀ segment ∈ path, IsLexeme segment.toList (.ofSegment segment))
    {following : List Char} {more : List Token} (stops : StopsNumber following) :
    Splits (source path ++ following) (tokens path ++ more) ↔ separated path = true ∧ Splits following more := by
  induction path with
  | nil => exact (and_iff_right rfl).symm
  | cons first rest ih =>
    have form := forms first List.mem_cons_self
    have rest' := ih fun segment member => forms segment (List.mem_cons_of_mem _ member)
    have step := @splits_cons_iff [] (source rest ++ following) (.ofSegment first) (tokens rest ++ more) rfl
      (by rwa [Token.ofSegment_text]) (ofSegment_not_keyword first)
    rw [Token.ofSegment_text, rest', List.nil_append] at step
    have parts : tokens (first :: rest) ++ more = .dot :: .ofSegment first :: (tokens rest ++ more) := rfl
    rw [source_cons_append, parts, splits_dot_iff, step]
    cases rest with
    | nil =>
      have ends := ends_ofSegment_of_stops stops first
      exact and_iff_right ends
    | cons second rest =>
      have some : second.toList ≠ [] := (forms second (by simp)).ne_nil
      have ends := @ends_ofSegment_point first second (source rest ++ following) some
      rw [separated, Bool.and_eq_true, Bool.not_eq_true', and_assoc, ← ends, source_cons_append]

end TagPath

end TagQuery
