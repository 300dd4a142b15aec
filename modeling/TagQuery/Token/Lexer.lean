import TagQuery.Limits
import TagQuery.Text.Blank
import TagQuery.Token.Basic

namespace TagQuery

inductive LexError
  | unexpectedCharacter (offset : Nat) (character : Char)
  | invalidNumber (offset : Nat) (text : String)
  | wordTooLong (offset length : Nat)
  | tooManyTokens (offset count : Nat)
deriving DecidableEq, Repr

namespace LexError

def offset : LexError → Nat
  | .unexpectedCharacter offset _ | .invalidNumber offset _ | .wordTooLong offset _
  | .tooManyTokens offset _ => offset

def code : LexError → String
  | .unexpectedCharacter .. => "E020"
  | .invalidNumber .. => "E022"
  | .wordTooLong .. => "E023"
  | .tooManyTokens .. => "E027"

def message : LexError → String
  | .unexpectedCharacter offset character =>
    "Unexpected character '" ++ character.toString ++ "' at offset " ++ toString offset
  | .invalidNumber offset text => "Invalid number '" ++ text ++ "' at offset " ++ toString offset
  | .wordTooLong offset length =>
    s!"Identifier too long at offset {offset}: {length} characters (max {Limits.wordBytes})"
  | .tooManyTokens offset count =>
    s!"Too many tokens at offset {offset}: {count} (max {Limits.tokens})"

end LexError

namespace Lexer

def isWordStart (c : Char) : Bool := c.isAlpha || c = '_'

def isWordChar (c : Char) : Bool := c.isAlphanum || c = '_' || c = '-'

def startsWithDigit : List Char → Bool
  | c :: _ => c.isDigit
  | [] => false

structure Piece where
  taken : List Char
  rest : List Char
deriving DecidableEq, Repr

def Piece.while (test : Char → Bool) (text : List Char) : Piece :=
  ⟨text.takeWhile test, text.dropWhile test⟩

def Piece.after (front : List Char) (piece : Piece) : Piece := ⟨front ++ piece.taken, piece.rest⟩

/-- The decimal places that follow the whole digits of a number: a point counts only before a digit. -/
def fraction (text : List Char) : Piece :=
  match text with
  | '.' :: rest => if startsWithDigit rest then (Piece.while Char.isDigit rest).after ['.'] else ⟨[], text⟩
  | _ => ⟨[], text⟩

def unsignedNumber (text : List Char) : Piece :=
  let whole := Piece.while Char.isDigit text
  (fraction whole.rest).after whole.taken

def number (text : List Char) : Piece :=
  match text with
  | '-' :: rest => (unsignedNumber rest).after ['-']
  | _ => unsignedNumber text

/-- What is glued to a number: the characters of words, and points before digits. -/
def glued : List Char → Piece
  | [] => ⟨[], []⟩
  | c :: text =>
    if isWordChar c || (c = '.' && startsWithDigit text) then (glued text).after [c]
    else ⟨[], c :: text⟩

structure Lexeme where
  token : Token
  taken : List Char
  rest : List Char

def word (offset : Nat) (text : List Char) : Except LexError Lexeme :=
  let piece := Piece.while isWordChar text
  let length := Text.byteLength piece.taken
  if length > Limits.wordBytes then .error (.wordTooLong offset length)
  else .ok ⟨.ofWord (String.ofList piece.taken), piece.taken, piece.rest⟩

def numeral (offset : Nat) (text : List Char) : Except LexError Lexeme :=
  let piece := number text
  let tail := glued piece.rest
  if tail.taken.isEmpty then
    match Number.double? piece.taken with
    | some value => .ok ⟨.number (String.ofList piece.taken) value, piece.taken, piece.rest⟩
    | none => .error (.invalidNumber offset (String.ofList piece.taken))
  else .error (.invalidNumber offset (String.ofList (piece.taken ++ tail.taken)))

def lexeme (offset : Nat) (first : Char) (rest : List Char) : Except LexError Lexeme :=
  if isWordStart first then word offset (first :: rest)
  else if first.isDigit || (first = '-' && startsWithDigit rest) then numeral offset (first :: rest)
  else if first = '.' then .ok ⟨.dot, [first], rest⟩
  else if first = '(' then .ok ⟨.opening, [first], rest⟩
  else if first = ')' then .ok ⟨.closing, [first], rest⟩
  else .error (.unexpectedCharacter offset first)

theorem Piece.while_rest_length (test : Char → Bool) (text : List Char) :
    (Piece.while test text).rest.length ≤ text.length :=
  (List.dropWhile_sublist test).length_le

theorem fraction_rest_length (text : List Char) : (fraction text).rest.length ≤ text.length := by
  unfold fraction
  split
  · split
    · exact Nat.le_succ_of_le (Piece.while_rest_length Char.isDigit _)
    · exact Nat.le_refl _
  · exact Nat.le_refl _

theorem number_rest_length (first : Char) (rest : List Char)
    (start : first.isDigit || (first = '-' && startsWithDigit rest)) :
    (number (first :: rest)).rest.length ≤ rest.length := by
  have unsigned (text : List Char) : (unsignedNumber text).rest.length ≤ text.length :=
    Nat.le_trans (fraction_rest_length _) (Piece.while_rest_length Char.isDigit text)
  unfold number
  split
  · rename_i tail same
    obtain ⟨_, rfl⟩ := List.cons.inj same
    exact unsigned rest
  · rename_i other
    by_cases minus : first = '-'
    · exact absurd (congrArg (· :: rest) minus) (other rest)
    · have digit : first.isDigit = true := by simpa [minus] using start
      refine Nat.le_trans (fraction_rest_length _) ?_
      simp only [Piece.while, List.dropWhile_cons, digit, if_true]
      exact Piece.while_rest_length Char.isDigit rest

theorem lexeme_rest_length {offset : Nat} {first : Char} {rest : List Char} {found : Lexeme}
    (read : lexeme offset first rest = .ok found) : found.rest.length ≤ rest.length := by
  unfold lexeme at read
  split at read
  · rename_i start
    have letter : isWordChar first = true := by
      simp only [isWordStart, Bool.or_eq_true, decide_eq_true_eq] at start
      simp only [isWordChar, Char.isAlphanum, Bool.or_eq_true, decide_eq_true_eq]
      exact Or.inl (start.imp Or.inl id)
    simp only [word] at read
    split at read
    · cases read
    · cases read
      simp only [Piece.while, List.dropWhile_cons, letter, if_true]
      exact Piece.while_rest_length isWordChar rest
  · split at read
    · rename_i start
      simp only [numeral] at read
      split at read
      · split at read
        · cases read
          exact number_rest_length first rest start
        · cases read
      · cases read
    · repeat' split at read
      all_goals cases read <;> exact Nat.le_refl _

end Lexer

structure Scanner where
  rest : List Char
  position : Position
  counts : TokenCounts

namespace Scanner

def ofSource (source : String) : Scanner := ⟨source.toList, .start, {}⟩

inductive Step
  | finished (marker : Spanned Token)
  | token (token : Spanned Token) (next : Scanner)
  | failed (error : LexError)

/-- Skips blanks and reads one token. The limit is checked before the token is looked at. -/
def step (scanner : Scanner) : Step :=
  let gap := Lexer.Piece.while Text.isGap scanner.rest
  let start := scanner.position.advanceOver gap.taken
  match gap.rest with
  | [] => .finished ⟨.eof, .emptyAt start⟩
  | first :: rest =>
    if Limits.tokens ≤ scanner.counts.total then
      .failed (.tooManyTokens start.offset (scanner.counts.total + 1))
    else
      match Lexer.lexeme start.offset first rest with
      | .error error => .failed error
      | .ok found =>
        let stop := start.advanceOver found.taken
        .token ⟨found.token, ⟨start, stop⟩⟩ ⟨found.rest, stop, scanner.counts.record found.token⟩

theorem step_rest_length {scanner next : Scanner} {token : Spanned Token}
    (read : scanner.step = .token token next) : next.rest.length < scanner.rest.length := by
  have gap := Lexer.Piece.while_rest_length Text.isGap scanner.rest
  simp only [step] at read
  split at read
  · cases read
  · rename_i first rest same
    split at read
    · cases read
    · split at read
      · cases read
      · rename_i found lexed
        cases read
        have taken := Lexer.lexeme_rest_length lexed
        rw [same, List.length_cons] at gap
        exact Nat.lt_of_lt_of_le (Nat.lt_succ_of_le taken) gap

end Scanner

structure Lexed where
  tokens : List (Spanned Token)
  counts : TokenCounts
deriving Repr

def Scanner.run (scanner : Scanner) : Except LexError Lexed :=
  match _ : scanner.step with
  | .finished marker => .ok ⟨[marker], scanner.counts⟩
  | .failed error => .error error
  | .token token next =>
    match next.run with
    | .ok lexed => .ok { lexed with tokens := token :: lexed.tokens }
    | .error error => .error error
termination_by scanner.rest.length
decreasing_by exact step_rest_length (by assumption)

def tokenize (source : String) : Except LexError Lexed := (Scanner.ofSource source).run

/-- A reader that hands out one token at a time and stops after the end marker or an error. -/
structure TokenFeed where
  scanner : Scanner
  finished : Bool

namespace TokenFeed

def ofSource (source : String) : TokenFeed := ⟨.ofSource source, false⟩

def counts (feed : TokenFeed) : TokenCounts := feed.scanner.counts

def next (feed : TokenFeed) : Option (Except LexError (Spanned Token)) × TokenFeed :=
  if feed.finished then (none, feed)
  else
    match feed.scanner.step with
    | .finished marker => (some (.ok marker), { feed with finished := true })
    | .failed error => (some (.error error), { feed with finished := true })
    | .token token scanner => (some (.ok token), { feed with scanner })

end TokenFeed

end TagQuery
