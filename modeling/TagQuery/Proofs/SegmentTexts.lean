import TagQuery.Proofs.Places
import TagQuery.Proofs.Regrouping

namespace TagQuery

open Lexer Text Layout

namespace Text

theorem not_isBlank_of_isDigit (c : Char) (digit : c.isDigit = true) : isBlank c = false := by
  have bounds : 48 ≤ c.toNat ∧ c.toNat ≤ 57 := Char.isDigit_iff_toNat.mp digit
  simp only [isBlank, Bool.or_eq_false_iff, Bool.and_eq_false_iff, decide_eq_false_iff_not]
  omega

theorem trim_of_bare {text : List Char} (front : startsWith isBlank text = false)
    (back : startsWith isBlank text.reverse = false) : trim text = text := by
  have first : text.dropWhile isBlank = text := @dropWhile_run isBlank [] text rfl front
  have last : text.reverse.dropWhile isBlank = text.reverse := @dropWhile_run isBlank [] text.reverse rfl back
  rw [trim, first, last, List.reverse_reverse]

end Text

namespace Number

theorem IsUnsigned.ends {text : List Char} (form : IsUnsigned text) : startsWith Char.isDigit text.reverse = true := by
  have digits {run : List Char} (form : isDigits run = true) (rest : List Char) :
      startsWith Char.isDigit (run.reverse ++ rest) = true := by
    obtain ⟨nonempty, all⟩ := isDigits_iff.mp form
    have nonempty' : run.reverse ≠ [] := by simpa using nonempty
    have all' : run.reverse.all Char.isDigit = true := by simpa using all
    rw [startsWith_append Char.isDigit rest nonempty']
    exact startsWith_of_all nonempty' all'
  rcases form with form | ⟨whole, places, -, form, rfl⟩
  · have last := digits form []
    rwa [List.append_nil] at last
  · rw [List.reverse_append, List.reverse_cons, List.append_assoc]
    exact digits form _

theorem IsNumeral.ends {text : List Char} (form : IsNumeral text) : startsWith Char.isDigit text.reverse = true := by
  rcases form with form | ⟨rest, form, rfl⟩
  · exact form.ends
  · have last := form.ends
    rw [List.reverse_cons, startsWith_append]
    · exact last
    · intro empty
      rw [empty] at last
      cases last

def IsPlain (text : List Char) : Prop :=
  startsWith (· = '+') text = false ∧ startsWith isBlank text = false ∧ startsWith isBlank text.reverse = false

theorem IsNumeral.isPlain {text : List Char} (form : IsNumeral text) : IsPlain text := by
  have back : startsWith isBlank text.reverse = false := startsWith_disjoint not_isBlank_of_isDigit form.ends
  rcases form with form | ⟨rest, form, rfl⟩
  · exact ⟨form.not_starts (by decide), startsWith_disjoint not_isBlank_of_isDigit form.starts, back⟩
  · exact ⟨rfl, rfl, back⟩

theorem ofTagValue?_of_isPlain {text : String} (plain : IsPlain text.toList) :
    ofTagValue? text = literal? text.toList := by
  obtain ⟨noPlus, front, back⟩ := plain
  have tested : ofTagValue? text = if isLiteral text.toList then double? text.toList else none := by
    rw [ofTagValue?, trim_of_bare front back]
    cases characters : text.toList with
    | nil => rfl
    | cons first rest =>
      have other : first ≠ '+' := by simpa [characters, startsWith] using noPlus
      by_cases minus : first = '-'
      · subst minus
        rfl
      · simp [isLiteral, minus, other]
  rw [tested, literal?]
  by_cases form : IsNumeral text.toList
  · rw [if_pos form, if_pos ((isLiteral_iff _).mpr form), double?_of_isNumeral form]
  · rw [if_neg form, if_neg (mt (isLiteral_iff _).mp form)]

theorem literal?_eq_some_iff_plain (text : String) (value : Float) :
    literal? text.toList = some value ↔ ofTagValue? text = some value ∧ IsPlain text.toList := by
  constructor
  · intro read
    have plain := (isNumeral_of_literal? read).isPlain
    rw [ofTagValue?_of_isPlain plain]
    exact ⟨read, plain⟩
  · rintro ⟨read, plain⟩
    rwa [ofTagValue?_of_isPlain plain] at read

end Number

def Lexes (source : String) (tokens : List Token) : Prop :=
  ∃ lexed, tokenize source = .ok lexed ∧ lexed.tokens.map (·.value) = tokens ++ [.eof]

theorem lexes_iff_splits (source : String) (tokens : List Token) :
    Lexes source tokens ↔ Splits source.toList tokens ∧ tokens.length ≤ Limits.tokens := by
  constructor
  · rintro ⟨lexed, lexing, values⟩
    obtain ⟨layout, fits, text, few, rfl⟩ := (tokenize_ok_iff_layout source lexed).mp lexing
    rw [Layout.lexed, placedItems_values] at values
    have same : layout.tokens = tokens := List.append_cancel_right values
    refine ⟨⟨layout, fits, text, same⟩, ?_⟩
    rw [← same, Layout.tokens, List.length_map]
    exact few
  · rintro ⟨⟨layout, fits, text, rfl⟩, few⟩
    rw [Layout.tokens, List.length_map] at few
    exact ⟨_, (tokenize_ok_iff_layout source _).mpr ⟨layout, fits, text, few, rfl⟩, placedItems_values _ _ _⟩

theorem Lexer.ends_nil (token : Token) : Ends token [] := by
  cases token with
  | word | keyword => rfl
  | number => exact ⟨rfl, nofun⟩
  | dot | opening | closing | eof => trivial

theorem Layout.splits_alone_iff {text : List Char} {token : Token} (exact : ∀ joining, token ≠ .keyword joining)
    (whole : token.text.toList = text) : Splits text [token] ↔ IsLexeme text token := by
  constructor
  · rintro ⟨⟨items, tail⟩, fits, source, named⟩
    cases fits with
    | ended => cases named
    | @item item items _ _ form _ rest =>
      obtain ⟨rfl, -⟩ := List.cons.inj named
      have lexeme := form.text_eq exact
      rw [whole] at lexeme
      rwa [lexeme] at form
  · intro form
    have alone := @Splits.item [] text [] token [] rfl form (ends_nil token) splits_nil
    rwa [List.nil_append, List.append_nil] at alone

theorem lexes_alone_iff {text : String} {token : Token} (exact : ∀ joining, token ≠ .keyword joining)
    (whole : token.text = text) : Lexes text [token] ↔ IsLexeme text.toList token := by
  have one : [token].length ≤ Limits.tokens := Nat.succ_le_succ (Nat.zero_le _)
  rw [lexes_iff_splits, Layout.splits_alone_iff exact (congrArg String.toList whole)]
  exact and_iff_left one

theorem Lexer.IsLexeme.literal {characters : List Char} {text : String} {value : Float}
    (form : IsLexeme characters (.number text value)) : Number.literal? characters = some value := by
  cases form with
  | number form nearest => exact Number.literal?_eq_some_iff.mpr ⟨form, nearest⟩

theorem Lexer.IsLexeme.short {characters : List Char} {word : String} (form : IsLexeme characters (.word word)) :
    byteLength characters ≤ Limits.wordBytes := by
  cases form with
  | word _ short => exact short

theorem lexes_number_iff (text : String) (value : Float) :
    Lexes text [.number text value] ↔ Number.literal? text.toList = some value := by
  have alone := @lexes_alone_iff text (.number text value) (fun _ => nofun) rfl
  rw [alone]
  constructor
  · exact IsLexeme.literal
  · exact isLexeme_literal

theorem Token.IsSegment.text_eq {token : Token} {segment : String} (spelled : token.IsSegment segment) :
    token.text = segment ∧ ∀ joining, token ≠ .keyword joining := by
  cases spelled <;> exact ⟨rfl, fun _ => nofun⟩

theorem lexes_segment_iff (text : String) :
    (∃ token, Lexes text [token] ∧ token.segment? = some text) ↔ IsLexeme text.toList (.ofSegment text) := by
  simp only [← Token.isSegment_iff_some]
  constructor
  · rintro ⟨token, lexes, spelled⟩
    obtain ⟨whole, exact⟩ := spelled.text_eq
    have form := (lexes_alone_iff exact whole).mp lexes
    exact (Token.IsLexical.ofSegment ⟨_, form⟩ spelled).2
  · intro form
    have exact := TagPath.ofSegment_not_keyword text
    exact ⟨.ofSegment text, (lexes_alone_iff exact (Token.ofSegment_text text)).mpr form, Token.isSegment_ofSegment text⟩

theorem isLexeme_ofSegment_iff (text : String) :
    IsLexeme text.toList (.ofSegment text) ↔
      isSegment text = true ∧ isReserved text = false ∧
        (startsWith isWordStart text.toList = true → text.utf8ByteSize ≤ Limits.wordBytes) := by
  rw [← byteLength_toList]
  constructor
  · intro form
    obtain ⟨valid, free⟩ := Token.IsLexical.allowed ⟨_, form⟩ (Token.isSegment_ofSegment text)
    refine ⟨valid, free, fun starts => ?_⟩
    rcases (isSegment_iff text).mp valid with word | numeral
    · rw [Token.ofSegment, word_not_numeral word] at form
      exact form.short
    · rw [(numeral_starts numeral).2] at starts
      cases starts
  · rintro ⟨valid, free, short⟩
    apply isLexeme_segment valid free
    intro word
    exact short word.1

/-- The readings of a text as a number agree, up to the blanks and the plus that only the value of a tag may have, and
    a text is a segment where it is lexed as one. -/
theorem number_and_segment_readings_agree (text : String) :
    (Number.isLiteral text.toList = true ↔ ∃ value, Lexes text [.number text value]) ∧
    (Number.isLiteral text.toList = true ↔
      (Number.ofTagValue? text).isSome = true ∧ Number.IsPlain text.toList) ∧
    (∀ value, Lexes text [.number text value] ↔
      Number.ofTagValue? text = some value ∧ Number.IsPlain text.toList) ∧
    (isSegment text = true ∧ isReserved text = false ∧
        (startsWith isWordStart text.toList = true → text.utf8ByteSize ≤ Limits.wordBytes) ↔
      ∃ token, Lexes text [token] ∧ token.segment? = some text) := by
  have literal : Number.isLiteral text.toList = true ↔ ∃ value, Number.literal? text.toList = some value := by
    rw [← Number.isSome_literal?, Option.isSome_iff_exists]
  refine ⟨?_, ?_, fun value => ?_, ?_⟩
  · simp only [literal, lexes_number_iff]
  · rw [literal, Option.isSome_iff_exists, ← exists_and_right]
    exact exists_congr (Number.literal?_eq_some_iff_plain text)
  · rw [lexes_number_iff]
    exact Number.literal?_eq_some_iff_plain text value
  · rw [lexes_segment_iff]
    exact (isLexeme_ofSegment_iff text).symm

/-- A plus is for tag values only, and a point that no digit follows is not part of a number. -/
theorem readings_of_signs_and_points :
    Lexes "-1.5" [.number "-1.5" (.ofBits 0xbff8000000000000)] ∧
    ((Number.ofTagValue? "+1").isSome = true ∧ ¬ ∃ value, Lexes "+1" [.number "+1" value]) ∧
    (Number.ofTagValue? "1." = none ∧ ¬ ∃ value, Lexes "1." [.number "1." value]) ∧
    ∃ token, Lexes "not-1" [token] ∧ token.segment? = some "not-1" := by
  have value : Number.ofTagValue? "-1.5" = some (.ofBits 0xbff8000000000000) := by
    have bits : (Number.numeralDecimal "-1.5".toList).bits = 0x3ff8000000000000 := by decide +kernel
    rw [Number.ofTagValue?_of_isPlain ⟨rfl, rfl, rfl⟩, Number.literal?_of_isNumeral (by decide), Number.numeralValue,
      Number.Decimal.toFloat, bits]
    rfl
  have minus := ((number_and_segment_readings_agree "-1.5").2.2.1 _).mpr ⟨value, rfl, rfl, rfl⟩
  have plus := (number_and_segment_readings_agree "+1").1.not.mp (by decide)
  have point := (number_and_segment_readings_agree "1.").1.not.mp (by decide)
  have segment := (number_and_segment_readings_agree "not-1").2.2.2.mp ⟨by decide, by decide, fun _ => by decide⟩
  exact ⟨minus, ⟨by decide, plus⟩, ⟨by decide, point⟩, segment⟩

end TagQuery
