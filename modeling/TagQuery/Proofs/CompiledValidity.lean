import TagQuery.Filter.Basic
import TagQuery.Proofs.FloatBits
import TagQuery.Proofs.Layout
import TagQuery.Proofs.ReaderExact

namespace TagQuery

open Lexer Text

def Token.IsLexical (token : Token) : Prop := ∃ text, IsLexeme text token

namespace Expr

def paths : Expr → List TagPath
  | .predicate path => [path]
  | .comparison key _ _ => [key]
  | .and left right | .or left right => left.paths ++ right.paths
  | .not inner | .group inner => inner.paths

def operands : Expr → List (TagPath × Float)
  | .predicate _ => []
  | .comparison key _ operand => [(key, operand)]
  | .and left right | .or left right => left.operands ++ right.operands
  | .not inner | .group inner => inner.operands

end Expr

theorem Token.untilEof_append_eof {tokens : List (Spanned Token)} {values : List Token}
    (ended : tokens.map (·.value) = values ++ [.eof]) (free : ∀ token ∈ values, token ≠ .eof) :
    Token.untilEof tokens = values := by
  have all (token : Token) (member : token ∈ values) : (!token.isEof) = true := by
    have different := free token member
    cases token <;> first | rfl | exact absurd rfl different
  have taken : (tokens.map (·.value)).takeWhile (fun token => !token.isEof) = values := by
    rw [ended, List.takeWhile_append_of_pos all, List.takeWhile_cons_of_neg (by decide), List.append_nil]
  rw [untilEof_map, taken]

namespace Layout

theorem Fits.lexical {layout : Layout} (fits : layout.Fits) : ∀ token ∈ layout.tokens, token.IsLexical := by
  induction fits with
  | ended => nofun
  | @item item items tail _ form _ _ ih =>
    intro token member
    rcases List.mem_cons.mp member with rfl | inside
    · exact ⟨item.lexeme, form⟩
    · exact ih token inside

theorem Fits.untilEof {layout : Layout} (fits : layout.Fits) (place : Position) (counts : TokenCounts) :
    Token.untilEof (layout.lexed place counts).tokens = layout.tokens := by
  refine Token.untilEof_append_eof (placedItems_values _ _ _) fun token member => ?_
  obtain ⟨text, form⟩ := fits.lexical token member
  exact form.token_ne_eof

end Layout

theorem numeral_not_keyword {text : List Char} (form : Number.IsNumeral text) (joining : Keyword) :
    text.map Char.toLower ≠ joining.text.toList := by
  intro same
  have starts := (numeral_starts form).1
  cases text with
  | nil => cases starts
  | cons first rest =>
    have begins : first.toLower = 'a' ∨ first.toLower = 'o' ∨ first.toLower = 'n' := by
      cases joining with
      | and => exact Or.inl (List.cons.inj same).1
      | or => exact Or.inr (Or.inl (List.cons.inj same).1)
      | not => exact Or.inr (Or.inr (List.cons.inj same).1)
    simp only [startsNumber, Bool.or_eq_true, Bool.and_eq_true, decide_eq_true_eq] at starts
    rcases starts with digit | ⟨minus, _⟩
    · rw [Number.toLower_of_isDigit first digit] at begins
      rcases begins with rfl | rfl | rfl <;> exact absurd digit (by decide)
    · subst minus
      exact absurd begins (by decide)

theorem isSegment_iff (segment : String) :
    isSegment segment = true ↔ IsWord segment.toList ∨ Number.IsNumeral segment.toList := by
  unfold isSegment
  cases segment.toList with
  | nil =>
    refine iff_of_false Bool.false_ne_true ?_
    rintro (word | number)
    · cases word.1
    · cases (numeral_starts number).1
  | cons first rest =>
    by_cases start : isWordStart first = true
    · have begins : (first.isAlpha || decide (first = '_')) = true := start
      have word : IsWord (first :: rest) ↔ rest.all isWordChar = true := by
        simp [IsWord, startsWith, start, isWordChar_of_isWordStart first start]
      have number : ¬ Number.IsNumeral (first :: rest) := fun form =>
        absurd start (by simpa [startsWith] using (numeral_starts form).2)
      rw [word, or_iff_left number]
      simp only [begins, if_true]
      exact Iff.rfl
    · have begins : (first.isAlpha || decide (first = '_')) = false := Bool.eq_false_iff.mpr start
      have word : ¬ IsWord (first :: rest) := fun form => start form.1
      rw [or_iff_right word, ← Number.isLiteral_iff]
      simp only [begins, Bool.false_eq_true, if_false]

theorem Token.IsLexical.allowed {token : Token} {segment : String} (lexical : token.IsLexical)
    (spelled : token.IsSegment segment) : isSegment segment = true ∧ isReserved segment = false := by
  obtain ⟨text, form⟩ := lexical
  cases form with
  | word form _ free =>
    cases spelled
    have none := (keyword_ofWord_none (String.ofList text)).mpr (by rwa [String.toList_ofList])
    exact ⟨(isSegment_iff _).mpr (by rw [String.toList_ofList]; exact .inl form), by rw [isReserved, none]; rfl⟩
  | number form =>
    cases spelled
    have none := (keyword_ofWord_none (String.ofList text)).mpr
      (by rw [String.toList_ofList]; exact numeral_not_keyword form)
    exact ⟨(isSegment_iff _).mpr (by rw [String.toList_ofList]; exact .inr form), by rw [isReserved, none]; rfl⟩
  | dot | opening | closing | keyword => cases spelled

theorem TagPath.check_ok_iff (first : String) (rest : List String) :
    TagPath.check ⟨first :: rest⟩ = .ok () ↔
      TagPath.allows true first = true ∧ ∀ segment ∈ rest, TagPath.allows false segment = true := by
  simp only [TagPath.check]
  by_cases begins : TagPath.allows true first = true
  · rw [if_pos begins]
    cases found : rest.find? fun segment => !TagPath.allows false segment with
    | none =>
      have all := List.find?_eq_none.mp found
      exact iff_of_true rfl ⟨begins, fun segment member => by simpa using all segment member⟩
    | some segment =>
      have refused := List.find?_some found
      refine iff_of_false nofun fun ⟨_, all⟩ => ?_
      simp [all segment (List.mem_of_find?_eq_some found)] at refused
  · rw [if_neg begins]
    exact iff_of_false nofun fun ⟨allowed, _⟩ => begins allowed

theorem SpellsPath.check {tokens : List Token} {path : List String} (spelled : SpellsPath tokens path)
    (lexical : ∀ token ∈ tokens, token.IsLexical) : TagPath.check ⟨path⟩ = .ok () := by
  induction spelled with
  | @first token segment spelled =>
    obtain ⟨isSegment, free⟩ := (lexical token (by simp)).allowed spelled
    exact (TagPath.check_ok_iff segment []).mpr ⟨by simp [TagPath.allows, isSegment, free], nofun⟩
  | @next tokens path token segment front spelled plain ih =>
    obtain ⟨isSegment, free⟩ := (lexical token (by simp)).allowed spelled
    have allowed : TagPath.allows false segment = true := by
      simp [TagPath.allows, isSegment, free, (Comparison.ofWord_eq_none_iff segment).mpr plain]
    have before := ih fun token member => lexical token (List.mem_append_left _ member)
    cases path with
    | nil => exact absurd rfl front.path_ne_nil
    | cons first rest =>
      obtain ⟨begins, all⟩ := (TagPath.check_ok_iff first rest).mp before
      refine (TagPath.check_ok_iff first (rest ++ [segment])).mpr ⟨begins, fun other member => ?_⟩
      rcases List.mem_append.mp member with inside | last
      · exact all other inside
      · obtain rfl := List.mem_singleton.mp last
        exact allowed

theorem Spells.path_tokens {stratum : Stratum} {tokens : List Token} {expr : Expr}
    (spelled : Spells stratum tokens expr) :
    ∀ path ∈ expr.paths, ∃ part, SpellsPath part path.segments ∧ ∀ token ∈ part, token ∈ tokens := by
  induction spelled with
  | disjunct _ ih | conjunct _ ih => exact ih
  | or _ _ first second | and _ _ first second =>
    intro path member
    rcases List.mem_append.mp member with left | right
    · obtain ⟨part, spelling, inside⟩ := first path left
      exact ⟨part, spelling, fun token within => List.mem_append_left _ (inside token within)⟩
    · obtain ⟨part, spelling, inside⟩ := second path right
      exact ⟨part, spelling, fun token within => List.mem_append_right _ (List.mem_cons_of_mem _ (inside token within))⟩
  | not _ ih =>
    intro path member
    obtain ⟨part, spelling, inside⟩ := ih path member
    exact ⟨part, spelling, fun token within => List.mem_cons_of_mem _ (inside token within)⟩
  | group _ ih =>
    intro path member
    obtain ⟨part, spelling, inside⟩ := ih path member
    exact ⟨part, spelling, fun token within => List.mem_cons_of_mem _ (List.mem_append_left _ (inside token within))⟩
  | predicate spelled =>
    intro path member
    obtain rfl := List.mem_singleton.mp member
    exact ⟨_, spelled, fun token within => List.mem_cons_of_mem _ within⟩
  | comparison spelled =>
    intro path member
    obtain rfl := List.mem_singleton.mp member
    exact ⟨_, spelled, fun token within => List.mem_cons_of_mem _ (List.mem_append_left _ within)⟩

theorem Spells.check_paths {stratum : Stratum} {tokens : List Token} {expr : Expr}
    (spelled : Spells stratum tokens expr) (lexical : ∀ token ∈ tokens, token.IsLexical) :
    ∀ path ∈ expr.paths, path.check = .ok () := by
  intro path member
  obtain ⟨part, spelling, inside⟩ := spelled.path_tokens path member
  exact spelling.check fun token within => lexical token (inside token within)

theorem Spells.operand_token {stratum : Stratum} {tokens : List Token} {expr : Expr}
    (spelled : Spells stratum tokens expr) :
    ∀ operand ∈ expr.operands, ∃ text, Token.number text operand.2 ∈ tokens := by
  induction spelled with
  | disjunct _ ih | conjunct _ ih => exact ih
  | or _ _ first second | and _ _ first second =>
    intro operand member
    rcases List.mem_append.mp member with left | right
    · obtain ⟨text, inside⟩ := first operand left
      exact ⟨text, List.mem_append_left _ inside⟩
    · obtain ⟨text, inside⟩ := second operand right
      exact ⟨text, List.mem_append_right _ (List.mem_cons_of_mem _ inside)⟩
  | not _ ih =>
    intro operand member
    obtain ⟨text, inside⟩ := ih operand member
    exact ⟨text, List.mem_cons_of_mem _ inside⟩
  | group _ ih =>
    intro operand member
    obtain ⟨text, inside⟩ := ih operand member
    exact ⟨text, List.mem_cons_of_mem _ (List.mem_append_left _ inside)⟩
  | predicate => nofun
  | @comparison _ _ _ _ text _ _ _ =>
    intro operand member
    obtain rfl := List.mem_singleton.mp member
    exact ⟨text, by simp⟩

namespace Number

theorem magnitude_toFloat (sign : Bool) (decimal : Decimal) : magnitude (decimal.toFloat sign) ≤ infinityBits := by
  have bounded : decimal.bits ≤ infinityBits := Nat.min_le_left _ _
  rw [Decimal.toFloat, magnitude_ofMagnitude sign bounded]
  exact bounded

theorem not_isFinite_numeralValue (text : List Char) : (!isFinite (numeralValue text)) = (numeralValue text).isInf := by
  have bounded : magnitude (numeralValue text) ≤ infinityBits := magnitude_toFloat _ _
  rw [Bool.eq_iff_iff, isInf_iff]
  simp only [isFinite, Bool.not_eq_true', decide_eq_false_iff_not, Nat.not_lt]
  omega

end Number

/-- The check of an expression within the limit whose paths are all right finds the first operand
    that is not finite. -/
theorem Expr.checkUnder_eq {limit : Nat} (expr : Expr) (depth : Nat)
    (paths : ∀ path ∈ expr.paths, path.check = .ok ()) (within : depth + expr.nesting ≤ limit) :
    expr.checkUnder limit depth =
      match expr.operands.find? fun operand => !Number.isFinite operand.2 with
      | some (key, operand) => .error (.nonFiniteOperand key.text operand)
      | none => .ok () := by
  induction expr generalizing depth with
  | predicate path => exact paths path (List.mem_singleton_self path)
  | comparison key op operand =>
    have checked : key.check = .ok () := paths key (List.mem_singleton_self key)
    simp only [checkUnder, checked, operands, List.find?_cons]
    cases Number.isFinite operand <;> rfl
  | and left right first second | or left right first second =>
    have bound : depth + max left.nesting right.nesting ≤ limit := within
    have one := first depth (fun path member => paths path (List.mem_append_left _ member)) (by omega)
    have other := second depth (fun path member => paths path (List.mem_append_right _ member)) (by omega)
    simp only [checkUnder, operands, List.find?_append, one]
    cases left.operands.find? fun operand => !Number.isFinite operand.2 with
    | some found => rfl
    | none => exact other
  | not inner ih | group inner ih =>
    have bound : depth + (1 + inner.nesting) ≤ limit := within
    rw [checkUnder, if_pos (by omega)]
    exact ih (depth + 1) paths (by omega)

theorem Expr.check_of_tokenize {limit : Nat} {source : String} {lexed : Lexed} {expr : Expr}
    (lexing : tokenize source = .ok lexed) (parsing : Expr.ofTokens limit lexed.tokens = .ok expr) :
    expr.check limit =
      match expr.operands.find? fun operand => operand.2.isInf with
      | some (key, operand) => .error (.nonFiniteOperand key.text operand)
      | none => .ok () := by
  obtain ⟨layout, fits, -, -, rfl⟩ := (tokenize_ok_iff_layout source lexed).mp lexing
  obtain ⟨spelled, nested⟩ := (Reader.run_ok_iff _ _ _ expr).mp parsing
  rw [fits.untilEof] at spelled
  have infinite (operand : TagPath × Float) (member : operand ∈ expr.operands) :
      (!Number.isFinite operand.2) = operand.2.isInf := by
    obtain ⟨text, inside⟩ := spelled.operand_token operand member
    obtain ⟨characters, form⟩ := fits.lexical _ inside
    cases form with
    | number _ nearest =>
      rw [nearest]
      exact Number.not_isFinite_numeralValue _
  have same := List.filter_congr infinite
  rw [Expr.check, Expr.checkUnder_eq expr 0 (spelled.check_paths fits.lexical) (by omega), ← List.head?_filter, same,
    List.head?_filter]

namespace Filter

theorem compile_of_parsed {limit : Nat} {source : String} {lexed : Lexed} {expr : Expr}
    (lexing : tokenize source = .ok lexed) (parsing : Expr.ofTokens limit lexed.tokens = .ok expr) :
    compile limit source =
      match expr.check limit with
      | .error error => .error (.validity error)
      | .ok () => .ok (.ofExpr source expr) := by
  simp only [compile, lexing, bind, Except.bind, Except.mapError, parsing]
  cases expr.check limit <;> rfl

theorem compile_cases (limit : Nat) (source : String) :
    (∃ lexed expr, tokenize source = .ok lexed ∧ Expr.ofTokens limit lexed.tokens = .ok expr) ∨
      (∃ error, tokenize source = .error error ∧ compile limit source = .error (.lexing error)) ∨
      ∃ lexed error, tokenize source = .ok lexed ∧ Expr.ofTokens limit lexed.tokens = .error error ∧
        compile limit source = .error (.parsing error) := by
  cases lexing : tokenize source with
  | error error =>
    refine Or.inr (Or.inl ⟨error, rfl, ?_⟩)
    simp only [compile, lexing, bind, Except.bind, Except.mapError]
  | ok lexed =>
    cases parsing : Expr.ofTokens limit lexed.tokens with
    | error error =>
      refine Or.inr (Or.inr ⟨lexed, error, rfl, parsing, ?_⟩)
      simp only [compile, lexing, bind, Except.bind, Except.mapError, parsing]
    | ok expr => exact Or.inl ⟨lexed, expr, rfl, parsing⟩

theorem compile_ok_iff (limit : Nat) (source : String) (filter : Filter) :
    compile limit source = .ok filter ↔
      ∃ lexed expr, tokenize source = .ok lexed ∧ Expr.ofTokens limit lexed.tokens = .ok expr ∧
        expr.check limit = .ok () ∧ filter = .ofExpr source expr := by
  constructor
  · intro compiled
    rcases compile_cases limit source with
      ⟨lexed, expr, lexing, parsing⟩ | ⟨error, -, failed⟩ | ⟨lexed, error, -, -, failed⟩
    · rw [compile_of_parsed lexing parsing] at compiled
      split at compiled
      · cases compiled
      · rename_i checking
        exact ⟨lexed, expr, lexing, parsing, checking, (Except.ok.inj compiled).symm⟩
    · rw [failed] at compiled
      cases compiled
    · rw [failed] at compiled
      cases compiled
  · rintro ⟨lexed, expr, lexing, parsing, checking, rfl⟩
    rw [compile_of_parsed lexing parsing, checking]

theorem compile_validity_iff (limit : Nat) (source : String) (error : ValidityError) :
    compile limit source = .error (.validity error) ↔
      ∃ lexed expr, tokenize source = .ok lexed ∧ Expr.ofTokens limit lexed.tokens = .ok expr ∧
        expr.check limit = .error error := by
  constructor
  · intro compiled
    rcases compile_cases limit source with
      ⟨lexed, expr, lexing, parsing⟩ | ⟨error, -, failed⟩ | ⟨lexed, error, -, -, failed⟩
    · rw [compile_of_parsed lexing parsing] at compiled
      split at compiled
      · rename_i fault checking
        cases compiled
        exact ⟨lexed, expr, lexing, parsing, checking⟩
      · cases compiled
    · rw [failed] at compiled
      cases compiled
    · rw [failed] at compiled
      cases compiled
  · rintro ⟨lexed, expr, lexing, parsing, checking⟩
    rw [compile_of_parsed lexing parsing, checking]

end Filter

/-- The only faults of sources that lex and parse are infinite operands, of which the first is reported. -/
theorem compile_rejects_infinite_operands (limit : Nat) (source : String) :
    (∀ error, Filter.compile limit source = .error (.validity error) ↔
      ∃ lexed expr key operand, tokenize source = .ok lexed ∧ Expr.ofTokens limit lexed.tokens = .ok expr ∧
        expr.operands.find? (fun operand => operand.2.isInf) = some (key, operand) ∧
        error = .nonFiniteOperand key.text operand) ∧
    (∀ lexed expr, tokenize source = .ok lexed → Expr.ofTokens limit lexed.tokens = .ok expr →
      ∀ operand ∈ expr.operands, ∃ text, Token.number text operand.2 ∈ lexed.tokens.map (·.value) ∧
        Number.literal? text.toList = some operand.2) := by
  refine ⟨fun error => ?_, fun lexed expr lexing parsing operand member => ?_⟩
  · rw [Filter.compile_validity_iff]
    constructor
    · rintro ⟨lexed, expr, lexing, parsing, fault⟩
      rw [Expr.check_of_tokenize lexing parsing] at fault
      split at fault
      · rename_i key operand found
        cases fault
        exact ⟨lexed, expr, key, operand, lexing, parsing, found, rfl⟩
      · cases fault
    · rintro ⟨lexed, expr, key, operand, lexing, parsing, found, rfl⟩
      refine ⟨lexed, expr, lexing, parsing, ?_⟩
      rw [Expr.check_of_tokenize lexing parsing, found]
  · obtain ⟨layout, fits, -, -, rfl⟩ := (tokenize_ok_iff_layout source lexed).mp lexing
    have spelled := ((Reader.run_ok_iff _ _ _ expr).mp parsing).1
    rw [fits.untilEof] at spelled
    obtain ⟨text, inside⟩ := spelled.operand_token operand member
    obtain ⟨characters, form⟩ := fits.lexical _ inside
    refine ⟨text, ?_, ?_⟩
    · rw [Layout.lexed, Layout.placedItems_values]
      exact List.mem_append_left _ inside
    · cases form with
      | number form nearest =>
        rw [String.toList_ofList]
        exact Number.literal?_eq_some_iff.mpr ⟨form, nearest⟩

end TagQuery
