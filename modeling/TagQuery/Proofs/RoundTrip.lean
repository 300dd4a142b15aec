import TagQuery.Proofs.CanonicalText

namespace TagQuery

open Lexer Text Layout

/-- Whether every path of an expression is read back as it is written. -/
def Expr.Separated (expr : Expr) : Prop := ∀ path ∈ expr.paths, TagPath.separated path.segments = true

instance (expr : Expr) : Decidable expr.Separated :=
  inferInstanceAs (Decidable (∀ path ∈ expr.paths, TagPath.separated path.segments = true))

theorem Layout.splits_of_tokenize {source : String} {lexed : Lexed} (read : tokenize source = .ok lexed) :
    Splits source.toList (Token.untilEof lexed.tokens) ∧ (Token.untilEof lexed.tokens).length ≤ Limits.tokens := by
  obtain ⟨layout, fits, text, few, rfl⟩ := (tokenize_ok_iff_layout source lexed).mp read
  rw [fits.untilEof]
  refine ⟨⟨layout, fits, text, rfl⟩, ?_⟩
  rw [Layout.tokens, List.length_map]
  exact few

theorem Layout.tokenize_of_splits {source : String} {tokens : List Token} (splits : Splits source.toList tokens)
    (few : tokens.length ≤ Limits.tokens) :
    ∃ lexed, tokenize source = .ok lexed ∧ Token.untilEof lexed.tokens = tokens := by
  obtain ⟨layout, fits, text, rfl⟩ := splits
  rw [Layout.tokens, List.length_map] at few
  exact ⟨_, (tokenize_ok_iff_layout source _).mpr ⟨layout, fits, text, few, rfl⟩, fits.untilEof _ _⟩

namespace Lexer

theorem stopsNumber_cons {c : Char} (other : isWordChar c = false) (plain : c ≠ '.') (rest : List Char) :
    StopsNumber (c :: rest) := by
  refine ⟨other, fun places whole => ?_⟩
  exact absurd (List.cons.inj whole).1 plain

theorem stopsNumber_space (rest : List Char) : StopsNumber (' ' :: rest) := stopsNumber_cons (by decide) (by decide) rest

theorem stopsNumber_comparison (op : Comparison) (rest : List Char) :
    StopsNumber ('.' :: (op.word.toList ++ rest)) := by
  refine ⟨rfl, fun places whole => ?_⟩
  obtain rfl := (List.cons.inj whole).2
  cases op <;> rfl

theorem isLexeme_keyword (joining : Keyword) : IsLexeme joining.text.toList (.keyword joining) := by
  refine .keyword ?_ ?_
  · cases joining <;> exact ⟨by decide, by decide⟩
  · cases joining <;> decide

theorem isLexeme_plain {word : String} (form : IsWord word.toList) (short : byteLength word.toList ≤ Limits.wordBytes)
    (free : Keyword.ofWord? word = none) : IsLexeme word.toList (.word word) := by
  have lexeme := isLexeme_word form short
  rwa [String.ofList_toList, Token.ofWord, free] at lexeme

theorem isLexeme_tag : IsLexeme tagWord.toList (.word tagWord) := isLexeme_plain (by decide) (by decide) (by decide)

theorem isLexeme_comparison (op : Comparison) : IsLexeme op.word.toList (.word op.word) := by
  cases op <;> exact isLexeme_plain (by decide) (by decide) (by decide)

theorem isLexeme_operand {operand : Float} (finite : Number.isFinite operand = true) :
    IsLexeme (Number.text operand).toList (.number (Number.text operand) operand) :=
  isLexeme_literal (Number.literal?_text finite)

end Lexer

namespace Expr

theorem text_predicate {path : TagPath} (some : path.segments ≠ []) (following : List Char) :
    (predicate path).text.toList ++ following = tagWord.toList ++ (TagPath.source path.segments ++ following) := by
  rw [← TagPath.toList_text path some]
  simp [text, tagWord]

theorem text_comparison {key : TagPath} (some : key.segments ≠ []) (op : Comparison) (operand : Float)
    (following : List Char) :
    (comparison key op operand).text.toList ++ following =
      tagWord.toList ++ (TagPath.source key.segments ++
        ('.' :: (op.word.toList ++ ('.' :: ((Number.text operand).toList ++ following))))) := by
  rw [← TagPath.toList_text key some]
  simp [text, tagWord]

theorem text_and (left right : Expr) (following : List Char) :
    (and left right).text.toList ++ following =
      left.text.toList ++ ([' '] ++ (Keyword.and.text.toList ++ ([' '] ++ (right.text.toList ++ following)))) := by
  simp [text, Keyword.text]

theorem text_or (left right : Expr) (following : List Char) :
    (or left right).text.toList ++ following =
      left.text.toList ++ ([' '] ++ (Keyword.or.text.toList ++ ([' '] ++ (right.text.toList ++ following)))) := by
  simp [text, Keyword.text]

theorem text_not (inner : Expr) (following : List Char) :
    (not inner).text.toList ++ following = Keyword.not.text.toList ++ ([' '] ++ (inner.text.toList ++ following)) := by
  simp [text, Keyword.text]

theorem text_group (inner : Expr) (following : List Char) :
    (group inner).text.toList ++ following =
      Token.opening.text.toList ++ (inner.text.toList ++ (Token.closing.text.toList ++ following)) := by
  simp [text, Token.text]

end Expr

theorem Layout.splits_tag_iff {gap following : List Char} {tokens : List Token} (blank : IsGap gap)
    (ends : startsWith isWordChar following = false) :
    Splits (gap ++ (tagWord.toList ++ following)) (.word "tag" :: tokens) ↔ Splits following tokens :=
  (@splits_cons_iff gap following (.word "tag") tokens blank isLexeme_tag nofun).trans (and_iff_right ends)

theorem Layout.splits_comparison_iff (op : Comparison) (following : List Char) (tokens : List Token) :
    Splits ('.' :: (op.word.toList ++ ('.' :: following))) (.dot :: .word op.word :: .dot :: tokens) ↔
      Splits following tokens := by
  have word := @splits_cons_iff [] ('.' :: following) (.word op.word) (.dot :: tokens) rfl (isLexeme_comparison op) nofun
  have ends : Ends (.word op.word) ('.' :: following) := rfl
  rw [splits_dot_iff]
  exact word.trans ((and_iff_right ends).trans (splits_dot_iff following tokens))

theorem Layout.splits_opening_iff {gap following : List Char} {tokens : List Token} (blank : IsGap gap) :
    Splits (gap ++ (Token.opening.text.toList ++ following)) (.opening :: tokens) ↔ Splits following tokens :=
  (@splits_cons_iff gap following .opening tokens blank .opening nofun).trans (and_iff_right trivial)

theorem Layout.splits_closing_iff (following : List Char) (tokens : List Token) :
    Splits (Token.closing.text.toList ++ following) (.closing :: tokens) ↔ Splits following tokens :=
  (@splits_cons_iff [] following .closing tokens rfl .closing nofun).trans (and_iff_right trivial)

theorem Layout.Splits.peel_keyword {gap following : List Char} {joining : Keyword} {first : Token}
    {tokens : List Token} (blank : IsGap gap)
    (splits : Splits (gap ++ (joining.text.toList ++ ([' '] ++ following))) (first :: tokens)) :
    Splits ([' '] ++ following) tokens :=
  splits.peel_ended blank (isLexeme_keyword joining) rfl

theorem TagPath.source_stops {path : List String} (some : path ≠ []) (following : List Char) :
    startsWith isWordChar (TagPath.source path ++ following) = false := by
  cases path with
  | nil => exact absurd rfl some
  | cons first rest => rfl

theorem Expr.separated_append {left right expr : Expr} (paths : expr.paths = left.paths ++ right.paths) :
    expr.Separated ↔ left.Separated ∧ right.Separated := by
  simp only [Separated, paths, List.forall_mem_append]

theorem Expr.separated_singleton {path : TagPath} {expr : Expr} (paths : expr.paths = [path]) :
    expr.Separated ↔ TagPath.separated path.segments = true := by
  simp only [Separated, paths, List.forall_mem_singleton]

/-- Whether the text of an expression splits into tokens only where its paths are separated, and then
    splits before what follows it. -/
def Expr.Recovers (expr : Expr) (tokens : List Token) : Prop :=
  ∀ gap following more, IsGap gap → StopsNumber following →
    Splits (gap ++ (expr.text.toList ++ following)) (tokens ++ more) → expr.Separated ∧ Splits following more

/-- Whether the text of an expression splits into tokens, together with whatever may follow it. -/
def Expr.Prints (expr : Expr) (tokens : List Token) : Prop :=
  ∀ gap following more, IsGap gap → StopsNumber following → Splits following more →
    Splits (gap ++ (expr.text.toList ++ following)) (tokens ++ more)

def Expr.tokens : Expr → List Token
  | .predicate path => .word "tag" :: TagPath.tokens path.segments
  | .comparison key op operand =>
    .word "tag" :: (TagPath.tokens key.segments ++
      [.dot, .word op.word, .dot, .number (Number.text operand) operand])
  | .and left right => left.tokens ++ .keyword .and :: right.tokens
  | .or left right => left.tokens ++ .keyword .or :: right.tokens
  | .not inner => .keyword .not :: inner.tokens
  | .group inner => .opening :: (inner.tokens ++ [.closing])

def Expr.Printable (stratum : Stratum) (count : Nat) (expr : Expr) : Prop :=
  ∃ printed, printed.length = count ∧ Spells stratum printed expr ∧ expr.Prints printed

section Joined

variable {left right expr : Expr} {joining : Keyword} {front back : List Token}

theorem Expr.Recovers.joined (first : left.Recovers front) (second : right.Recovers back)
    (paths : expr.paths = left.paths ++ right.paths)
    (text : ∀ following, expr.text.toList ++ following =
      left.text.toList ++ ([' '] ++ (joining.text.toList ++ ([' '] ++ (right.text.toList ++ following))))) :
    expr.Recovers (front ++ .keyword joining :: back) := by
  intro gap following more blank stops splits
  rw [text, List.append_assoc, List.cons_append] at splits
  obtain ⟨before, joint⟩ := first gap _ _ blank (stopsNumber_space _) splits
  have rest := @Splits.peel_keyword [' '] _ joining _ _ rfl joint
  obtain ⟨after, others⟩ := second [' '] following more rfl stops rest
  exact ⟨(Expr.separated_append paths).mpr ⟨before, after⟩, others⟩

theorem Expr.Prints.joined (first : left.Prints front) (second : right.Prints back)
    (text : ∀ following, expr.text.toList ++ following =
      left.text.toList ++ ([' '] ++ (joining.text.toList ++ ([' '] ++ (right.text.toList ++ following))))) :
    expr.Prints (front ++ .keyword joining :: back) := by
  intro gap following more blank stops splits
  rw [text, List.append_assoc, List.cons_append]
  have after := second [' '] following more rfl stops splits
  have ends : Ends (.keyword joining) ([' '] ++ (right.text.toList ++ following)) := rfl
  have joint := @Splits.item [' '] _ _ _ _ rfl (isLexeme_keyword joining) ends after
  exact first gap _ _ blank (stopsNumber_space _) joint

end Joined

theorem Spells.recovers {stratum : Stratum} {spelling : List Token} {expr : Expr}
    (spelled : Spells stratum spelling expr) (finite : ∀ operand ∈ expr.operands, Number.isFinite operand.2 = true) :
    expr.Recovers spelling := by
  -- what follows is left open, since every operand but the last is followed by more of the text
  induction spelled with
  | disjunct _ ih | conjunct _ ih => exact ih finite
  | @or front back left right _ _ first second =>
    have before := first fun operand member => finite operand (List.mem_append_left _ member)
    have after := second fun operand member => finite operand (List.mem_append_right _ member)
    exact before.joined after rfl (Expr.text_or left right)
  | @and front back left right _ _ first second =>
    have before := first fun operand member => finite operand (List.mem_append_left _ member)
    have after := second fun operand member => finite operand (List.mem_append_right _ member)
    exact before.joined after rfl (Expr.text_and left right)
  | not _ ih =>
    intro gap following more blank stops splits
    rw [Expr.text_not] at splits
    exact ih finite [' '] following more rfl stops (splits.peel_keyword blank)
  | group _ ih =>
    intro gap following more blank stops splits
    rw [Expr.text_group, List.cons_append, splits_opening_iff blank, List.append_assoc] at splits
    have close : StopsNumber (Token.closing.text.toList ++ following) := stopsNumber_cons (by decide) (by decide) _
    obtain ⟨separated, rest⟩ := ih finite [] _ _ rfl close splits
    exact ⟨separated, (splits_closing_iff following more).mp rest⟩
  | @predicate tokens path spelled =>
    intro gap following more blank stops splits
    have some := spelled.path_ne_nil
    obtain ⟨same, forms⟩ := spelled.eq_tokens fun token member => splits.lexical token (by simp [member])
    rw [Expr.text_predicate some, List.cons_append, splits_tag_iff blank (TagPath.source_stops some _), same,
      TagPath.splits_iff_separated forms stops] at splits
    rwa [Expr.separated_singleton rfl]
  | @comparison tokens key word op text operand spelled named =>
    intro gap following more blank stops splits
    have some := spelled.path_ne_nil
    obtain ⟨same, forms⟩ := spelled.eq_tokens fun token member => splits.lexical token (by simp [member])
    obtain ⟨operator, -⟩ := (splits.lexical word (by simp)).ofSegment named
    have plain : Token.ofSegment op.word = .word op.word := by cases op <;> rfl
    rw [Expr.text_comparison some, List.cons_append, splits_tag_iff blank (TagPath.source_stops some _),
      List.append_assoc, same, TagPath.splits_iff_separated forms (stopsNumber_comparison op _), operator,
      plain] at splits
    obtain ⟨separated, rest⟩ := splits
    have operands := (splits_comparison_iff op _ _).mp rest
    have value := finite (⟨key⟩, operand) (List.mem_singleton_self _)
    have others := @Splits.peel_ended [] _ _ _ _ _ rfl (isLexeme_operand value) stops operands
    exact ⟨(Expr.separated_singleton rfl).mpr separated, others⟩

structure Expr.Legible (expr : Expr) : Prop where
  lexical : ∀ path ∈ expr.paths, path.Lexical
  finite : ∀ operand ∈ expr.operands, Number.isFinite operand.2 = true
  separated : expr.Separated

theorem Expr.Legible.parts {left right expr : Expr} (legible : expr.Legible)
    (paths : expr.paths = left.paths ++ right.paths) (operands : expr.operands = left.operands ++ right.operands) :
    left.Legible ∧ right.Legible := by
  obtain ⟨lexical, finite, separated⟩ := legible
  rw [paths, List.forall_mem_append] at lexical
  rw [operands, List.forall_mem_append] at finite
  rw [separated_append paths] at separated
  exact ⟨⟨lexical.1, finite.1, separated.1⟩, ⟨lexical.2, finite.2, separated.2⟩⟩

theorem Expr.Legible.prints {expr : Expr} (legible : expr.Legible) : expr.Prints expr.tokens := by
  induction expr with
  | predicate path =>
    intro gap following more blank stops splits
    obtain ⟨some, forms⟩ := legible.lexical path (List.mem_singleton_self path)
    rw [text_predicate some, tokens, List.cons_append, splits_tag_iff blank (TagPath.source_stops some _),
      TagPath.splits_iff_separated forms stops]
    exact ⟨(separated_singleton rfl).mp legible.separated, splits⟩
  | comparison key op operand =>
    intro gap following more blank stops splits
    obtain ⟨some, forms⟩ := legible.lexical key (List.mem_singleton_self key)
    have value := legible.finite (key, operand) (List.mem_singleton_self _)
    have last := @Splits.item [] _ _ _ _ rfl (isLexeme_operand value) stops splits
    have rest := (splits_comparison_iff op _ _).mpr last
    rw [text_comparison some, tokens, List.cons_append, splits_tag_iff blank (TagPath.source_stops some _),
      List.append_assoc, TagPath.splits_iff_separated forms (stopsNumber_comparison op _)]
    exact ⟨(separated_singleton rfl).mp legible.separated, rest⟩
  | and left right first second =>
    obtain ⟨before, after⟩ := legible.parts rfl rfl
    exact (first before).joined (second after) (text_and left right)
  | or left right first second =>
    obtain ⟨before, after⟩ := legible.parts rfl rfl
    exact (first before).joined (second after) (text_or left right)
  | not inner ih =>
    intro gap following more blank stops splits
    have prints := ih ⟨legible.lexical, legible.finite, legible.separated⟩
    rw [text_not]
    exact .item blank (isLexeme_keyword .not) rfl (prints [' '] following more rfl stops splits)
  | group inner ih =>
    intro gap following more blank stops splits
    have prints := ih ⟨legible.lexical, legible.finite, legible.separated⟩
    have close : StopsNumber (Token.closing.text.toList ++ following) := stopsNumber_cons (by decide) (by decide) _
    have rest := (splits_closing_iff following more).mpr splits
    rw [text_group, tokens, List.cons_append, splits_opening_iff blank, List.append_assoc]
    exact prints [] _ _ rfl close rest

theorem Spells.paths_lexical {stratum : Stratum} {spelling : List Token} {expr : Expr}
    (spelled : Spells stratum spelling expr) (lexical : ∀ token ∈ spelling, token.IsLexical) :
    ∀ path ∈ expr.paths, path.Lexical := by
  intro path member
  obtain ⟨part, spelling, inside⟩ := spelled.path_tokens path member
  exact ⟨spelling.path_ne_nil, (spelling.eq_tokens fun token within => lexical token (inside token within)).2⟩

/-- An expression is read from as many tokens as it is written with, however its segments and its
    operands were spelled. -/
theorem Spells.length_eq {stratum : Stratum} {spelling : List Token} {expr : Expr}
    (spelled : Spells stratum spelling expr) : spelling.length = expr.tokens.length := by
  have path {spelling : List Token} {path : List String} (spelled : SpellsPath spelling path) :
      spelling.length = (TagPath.tokens path).length := by
    induction spelled with
    | first => rfl
    | next _ _ _ ih =>
      rw [List.length_append, ih, TagPath.tokens, TagPath.tokens, List.flatMap_append, List.length_append]
      rfl
  induction spelled with
  | disjunct _ ih | conjunct _ ih => exact ih
  | or _ _ first second | and _ _ first second =>
    simp only [Expr.tokens, List.length_append, List.length_cons, first, second]
  | not _ ih => exact congrArg (· + 1) ih
  | group _ ih => simp only [Expr.tokens, List.length_append, List.length_cons, ih]
  | predicate spelled => exact congrArg (· + 1) (path spelled)
  | comparison spelled => simp only [Expr.tokens, List.length_append, List.length_cons, path spelled]

theorem Spells.tokens {stratum : Stratum} {spelling : List Token} {expr : Expr}
    (spelled : Spells stratum spelling expr) (lexical : ∀ token ∈ spelling, token.IsLexical) :
    Spells stratum expr.tokens expr := by
  induction spelled with
  | disjunct _ ih => exact .disjunct (ih lexical)
  | conjunct _ ih => exact .conjunct (ih lexical)
  | or _ _ first second =>
    have spelled := first fun token member => lexical token (List.mem_append_left _ member)
    have spelled' := second fun token member => lexical token (List.mem_append_right _ (List.mem_cons_of_mem _ member))
    exact .or spelled spelled'
  | and _ _ first second =>
    have spelled := first fun token member => lexical token (List.mem_append_left _ member)
    have spelled' := second fun token member => lexical token (List.mem_append_right _ (List.mem_cons_of_mem _ member))
    exact .and spelled spelled'
  | not _ ih => exact .not (ih fun token member => lexical token (List.mem_cons_of_mem _ member))
  | group _ ih =>
    exact .group (ih fun token member => lexical token (List.mem_cons_of_mem _ (List.mem_append_left _ member)))
  | predicate spelled =>
    obtain ⟨rfl, -⟩ := spelled.eq_tokens fun token member => lexical token (List.mem_cons_of_mem _ member)
    exact .predicate spelled
  | comparison spelled =>
    -- the operand is written with the digits that it needs, whatever spelling it was read from
    obtain ⟨rfl, -⟩ := spelled.eq_tokens fun token member => lexical token (by simp [member])
    exact .comparison spelled (.word _)

theorem Spells.printable {stratum : Stratum} {spelling : List Token} {expr : Expr}
    (spelled : Spells stratum spelling expr) (lexical : ∀ token ∈ spelling, token.IsLexical)
    (finite : ∀ operand ∈ expr.operands, Number.isFinite operand.2 = true) (separated : expr.Separated) :
    expr.Printable stratum spelling.length := by
  have legible : expr.Legible := ⟨spelled.paths_lexical lexical, finite, separated⟩
  exact ⟨expr.tokens, spelled.length_eq.symm, spelled.tokens lexical, legible.prints⟩

theorem Spells.check_ok_iff {stratum : Stratum} {spelling : List Token} {expr : Expr} {limit : Nat}
    (spelled : Spells stratum spelling expr) (lexical : ∀ token ∈ spelling, token.IsLexical)
    (nested : expr.nesting ≤ Limits.clampNesting limit) :
    expr.check limit = .ok () ↔ ∀ operand ∈ expr.operands, Number.isFinite operand.2 = true := by
  have within : 0 + expr.nesting ≤ Limits.clampNesting limit := by omega
  rw [Expr.check, Expr.checkUnder_eq expr 0 (spelled.check_paths lexical) within]
  cases found : expr.operands.find? fun operand => !Number.isFinite operand.2 with
  | some operand =>
    have infinite := List.find?_some found
    constructor
    · intro valid
      cases valid
    · intro all
      simp [all operand (List.mem_of_find?_eq_some found)] at infinite
  | none =>
    refine iff_of_true rfl fun operand member => ?_
    have all := List.find?_eq_none.mp found
    simpa using all operand member

namespace Filter

theorem spells_of_compiled {limit : Nat} {source : String} {filter : Filter}
    (compiled : compile limit source = .ok filter) :
    ∃ tokens, Spells .disjunction tokens filter.expr ∧ (∀ token ∈ tokens, token.IsLexical) ∧
      tokens.length ≤ Limits.tokens ∧ filter.expr.nesting ≤ Limits.clampNesting limit ∧
      (∀ operand ∈ filter.expr.operands, Number.isFinite operand.2 = true) ∧ filter.expr.check limit = .ok () := by
  obtain ⟨lexed, expr, lexing, parsing, checking, rfl⟩ := (compile_ok_iff limit source filter).mp compiled
  obtain ⟨splits, few⟩ := splits_of_tokenize lexing
  obtain ⟨spelled, nested⟩ := (Reader.run_ok_iff _ _ _ expr).mp parsing
  have finite := (spelled.check_ok_iff splits.lexical nested).mp checking
  exact ⟨_, spelled, splits.lexical, few, nested, finite, checking⟩

/-- The canonical text of a compiled source is read back as the expression where its paths are
    separated, and then it compiles to a filter that decides alike; elsewhere it is not. -/
theorem canonical_reads_back_iff_separated {limit : Nat} {source : String} {filter : Filter}
    (compiled : compile limit source = .ok filter) :
    ((∃ lexed, tokenize filter.canonical = .ok lexed ∧ Expr.ofTokens limit lexed.tokens = .ok filter.expr) ↔
      filter.expr.Separated) ∧
    (filter.expr.Separated → ∃ again, compile limit filter.canonical = .ok again ∧ again.expr = filter.expr ∧
      ∀ context policy, again.decide context policy = filter.decide context policy) := by
  obtain ⟨tokens, spelled, lexical, few, nested, finite, checking⟩ := spells_of_compiled compiled
  have whole : filter.canonical.toList = [] ++ (filter.expr.text.toList ++ []) := (List.append_nil _).symm
  have ended : StopsNumber [] := ⟨rfl, nofun⟩
  have back (separated : filter.expr.Separated) :
      ∃ lexed, tokenize filter.canonical = .ok lexed ∧ Expr.ofTokens limit lexed.tokens = .ok filter.expr := by
    -- as many tokens as the source had, so the limit on tokens holds again
    obtain ⟨printed, length, spelled', prints⟩ := spelled.printable lexical finite separated
    have splits := prints [] [] [] rfl ended splits_nil
    rw [← whole, List.append_nil] at splits
    obtain ⟨lexed, lexing, same⟩ := tokenize_of_splits splits (by omega)
    rw [← same] at spelled'
    exact ⟨lexed, lexing, (Reader.run_ok_iff _ _ _ _).mpr ⟨spelled', nested⟩⟩
  refine ⟨⟨?_, back⟩, fun separated => ?_⟩
  · rintro ⟨lexed, lexing, parsing⟩
    have splits := (splits_of_tokenize lexing).1
    have spelled' := ((Reader.run_ok_iff _ _ _ _).mp parsing).1
    rw [whole, ← List.append_nil (Token.untilEof _)] at splits
    exact (spelled'.recovers finite [] [] [] rfl ended splits).1
  · obtain ⟨lexed, lexing, parsing⟩ := back separated
    have again := (compile_ok_iff limit filter.canonical _).mpr ⟨lexed, _, lexing, parsing, checking, rfl⟩
    exact ⟨_, again, rfl, fun _ _ => rfl⟩

theorem canonical_reads_back_grouped :
    ∃ filter, compile 64 "(tag . a.10 .x)AND NOT tag.b.ge.1.50" = .ok filter ∧
      filter.canonical = "(tag.a.10.x) and not tag.b.ge.1.5" ∧
      ∃ again, compile 64 filter.canonical = .ok again ∧ again.expr = filter.expr := by
  let expr : Expr := .and (.group (.predicate ⟨["a", "10", "x"]⟩))
    (.not (.comparison ⟨["b"]⟩ .atLeast (Number.Decimal.toFloat false ⟨15, -1⟩)))
  have compiled : compile 64 "(tag . a.10 .x)AND NOT tag.b.ge.1.50" =
      .ok (.ofExpr "(tag . a.10 .x)AND NOT tag.b.ge.1.50" expr) := by decide +kernel
  obtain ⟨again, success, same, -⟩ := (canonical_reads_back_iff_separated compiled).2 (by decide)
  exact ⟨_, compiled, by decide +kernel, again, success, same⟩

/-- Between the numbers of a path a point is lost. -/
theorem canonical_fuses_numbers :
    ∃ filter again, compile 64 "tag.1 .5" = .ok filter ∧ compile 64 filter.canonical = .ok again ∧
      again.expr ≠ filter.expr ∧
      again.decide (.ofList [("1", "5")]) .error = .ok false ∧
      filter.decide (.ofList [("1", "5")]) .error = .ok true := by
  refine ⟨.ofExpr "tag.1 .5" (.predicate ⟨["1", "5"]⟩), .ofExpr "tag.1.5" (.predicate ⟨["1.5"]⟩),
    ?_, ?_, ?_, ?_, ?_⟩
  all_goals decide +kernel

end Filter

end TagQuery
