import TagQuery.Expr.Reader
import TagQuery.Expr.Shape

namespace TagQuery

inductive Stratum
  | disjunction
  | conjunction
  | operand
deriving DecidableEq, Repr

/-- Tokens that stand for a segment of a path: a word or a number, each for its own text. -/
inductive Token.IsSegment : Token → String → Prop
  | word (text : String) : IsSegment (.word text) text
  | number (text : String) (value : Float) : IsSegment (.number text value) text

/-- Tokens that spell a path after the word `tag`: a point and a segment, once or more. A comparison
    word is a segment in the first place only. -/
inductive SpellsPath : List Token → List String → Prop
  | first {token : Token} {segment : String} (spelled : token.IsSegment segment) :
      SpellsPath [.dot, token] [segment]
  | next {tokens : List Token} {path : List String} {token : Token} {segment : String}
      (front : SpellsPath tokens path) (spelled : token.IsSegment segment)
      (plain : ∀ op : Comparison, segment ≠ op.word) :
      SpellsPath (tokens ++ [.dot, token]) (path ++ [segment])

/-- Tokens that spell an expression at a level of the grammar. The text of a number token is not
    looked into here, so one with the text of a comparison word names the comparison as well; no
    such token carries number text. -/
inductive Spells : Stratum → List Token → Expr → Prop
  | disjunct {tokens : List Token} {expr : Expr} (only : Spells .conjunction tokens expr) :
      Spells .disjunction tokens expr
  | or {front back : List Token} {left right : Expr} (first : Spells .disjunction front left)
      (second : Spells .conjunction back right) :
      Spells .disjunction (front ++ .keyword .or :: back) (.or left right)
  | conjunct {tokens : List Token} {expr : Expr} (only : Spells .operand tokens expr) :
      Spells .conjunction tokens expr
  | and {front back : List Token} {left right : Expr} (first : Spells .conjunction front left)
      (second : Spells .operand back right) :
      Spells .conjunction (front ++ .keyword .and :: back) (.and left right)
  | not {tokens : List Token} {inner : Expr} (negated : Spells .operand tokens inner) :
      Spells .operand (.keyword .not :: tokens) (.not inner)
  | group {tokens : List Token} {inner : Expr} (enclosed : Spells .disjunction tokens inner) :
      Spells .operand (.opening :: (tokens ++ [.closing])) (.group inner)
  | predicate {tokens : List Token} {path : List String} (spelled : SpellsPath tokens path) :
      Spells .operand (.word "tag" :: tokens) (.predicate ⟨path⟩)
  | comparison {tokens : List Token} {key : List String} {word : Token} {op : Comparison}
      {text : String} {operand : Float} (spelled : SpellsPath tokens key)
      (named : word.IsSegment op.word) :
      Spells .operand (.word "tag" :: (tokens ++ [.dot, word, .dot, .number text operand]))
        (.comparison ⟨key⟩ op operand)

def Token.untilEof (tokens : List (Spanned Token)) : List Token :=
  (tokens.takeWhile fun token => token.value ≠ .eof).map (·.value)

namespace Token

variable {first rest : List (Spanned Token)}

theorem isSegment_iff_some {token : Token} {segment : String} :
    token.IsSegment segment ↔ token.segment? = some segment := by
  constructor
  · rintro (_ | _) <;> rfl
  · cases token with
    | word text =>
      intro spelled
      obtain rfl := Option.some.inj spelled
      exact .word text
    | number text value =>
      intro spelled
      obtain rfl := Option.some.inj spelled
      exact .number text value
    | dot | opening | closing | keyword | eof => nofun

theorem isEof_iff {token : Token} : token.isEof = true ↔ token = .eof := by
  cases token <;> simp [isEof]

theorem untilEof_eq (tokens : List (Spanned Token)) :
    untilEof tokens = (tokens.takeWhile fun token => !token.value.isEof).map (·.value) := by
  have same (token : Spanned Token) : decide (token.value ≠ .eof) = !token.value.isEof := by
    rw [Bool.eq_iff_iff, decide_eq_true_eq, Bool.not_eq_true', ← Bool.not_eq_true, isEof_iff]
  simp only [untilEof, same]

theorem untilEof_map (tokens : List (Spanned Token)) :
    untilEof tokens = (tokens.map (·.value)).takeWhile fun token => !token.isEof := by
  rw [untilEof_eq, List.takeWhile_map]
  rfl

theorem untilEof_cons {token : Spanned Token} (other : token.value.isEof = false) :
    untilEof (token :: rest) = token.value :: untilEof rest := by
  rw [untilEof_eq, untilEof_eq, List.takeWhile_cons_of_pos (by simp [other]), List.map_cons]

theorem untilEof_append (free : ∀ token ∈ first, token.value.isEof = false) :
    untilEof (first ++ rest) = first.map (·.value) ++ untilEof rest := by
  induction first with
  | nil => rfl
  | cons token first ih =>
    rw [List.cons_append, untilEof_cons (free token List.mem_cons_self),
      ih fun other member => free other (List.mem_cons_of_mem _ member)]
    rfl

end Token

theorem Comparison.ofWord_word (op : Comparison) : Comparison.ofWord? op.word = some op := by
  cases op <;> decide

theorem Comparison.word_of_ofWord {word : String} {op : Comparison}
    (found : Comparison.ofWord? word = some op) : word = op.word := by
  have same := List.find?_some found
  simpa using same

theorem Comparison.ofWord_eq_none_iff (word : String) :
    Comparison.ofWord? word = none ↔ ∀ op : Comparison, word ≠ op.word := by
  constructor
  · intro none op same
    rw [same, Comparison.ofWord_word] at none
    cases none
  · intro plain
    cases found : Comparison.ofWord? word with
    | none => rfl
    | some op => exact absurd (Comparison.word_of_ofWord found) (plain op)

theorem SpellsPath.path_ne_nil {tokens : List Token} {path : List String}
    (spelled : SpellsPath tokens path) : path ≠ [] := by
  cases spelled <;> simp

end TagQuery
