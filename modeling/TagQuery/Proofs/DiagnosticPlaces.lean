import TagQuery.Filter.Basic
import TagQuery.Proofs.TokenPlaces

namespace TagQuery

namespace Text

/-- Whether a line is the longest stretch without line feeds around the place between two texts. -/
def IsLineAround (before after line : List Char) : Prop :=
  ∃ earlier lead trail later, before = earlier ++ lead ∧ after = trail ++ later ∧ line = lead ++ trail ∧ '\n' ∉ line ∧
    (earlier = [] ∨ ∃ text, earlier = text ++ ['\n']) ∧ (later = [] ∨ ∃ text, later = '\n' :: text)

def diagnosticAt (place : Position) (line : List Char) (message : String) : String :=
  let number := toString place.line
  let margin := spaces number.length
  "Error: " ++ message ++ "\n  --> " ++ place.text ++ "\n " ++ margin ++ " |\n" ++
    number ++ " | " ++ String.ofList line ++ "\n " ++
    margin ++ " | " ++ spaces (place.column - 1) ++ "^\n"

def boundaryBelow (text : List Char) : Nat → Nat
  | 0 => 0
  | offset + 1 => if (splitAtByte? text (offset + 1)).isSome then offset + 1 else boundaryBelow text offset

def firstLineFeed? : List Char → Option Nat
  | [] => none
  | c :: text => if c = '\n' then some 0 else (firstLineFeed? text).map (c.utf8Size + ·)

def lastLineFeed? : List Char → Option Nat
  | [] => none
  | c :: text =>
    match lastLineFeed? text with
    | some offset => some (c.utf8Size + offset)
    | none => if c = '\n' then some 0 else none

/-- The diagnostic that is found by looking for line feeds on both sides of an offset and slicing the source at them. There
    is none if a slice begins or ends inside a character. -/
def slicedDiagnostic? (source : String) (offset : Nat) (message : String) : Option String := do
  let text := source.toList
  let offset := boundaryBelow text (min offset (byteLength text))
  let (front, back) ← splitAtByte? text offset
  let lineStart := ((lastLineFeed? front).map (· + 1)).getD 0
  let lineEnd := ((firstLineFeed? back).map (offset + ·)).getD (byteLength text)
  let earlier ← slice? text 0 lineStart
  let lead ← slice? text lineStart offset
  let line ← slice? text lineStart lineEnd
  return diagnosticAt ⟨offset, earlier.count '\n' + 1, lead.length + 1⟩ line message

theorem boundaryBelow_eq (text : List Char) (offset : Nat) :
    boundaryBelow text offset = byteLength (takeFitting offset text) := by
  induction offset with
  | zero =>
    have none := byteLength_takeFitting_le 0 text
    rw [boundaryBelow]
    omega
  | succ offset ih =>
    have fits := byteLength_takeFitting_le (offset + 1) text
    obtain ⟨back, whole⟩ := takeFitting_isPrefix (offset + 1) text
    rw [boundaryBelow]
    split
    · rename_i boundary
      obtain ⟨⟨front, rest⟩, split⟩ := Option.isSome_iff_exists.mp boundary
      obtain ⟨same, size⟩ := splitAtByte?_eq_some_iff.mp split
      have longest := byteLength_le_of_isPrefix (isPrefix_takeFitting _ ⟨rest, same.symm⟩ (Nat.le_of_eq size))
      omega
    · rename_i inside
      -- what fits one byte more ends before that byte, which is inside a character
      have shorter : byteLength (takeFitting (offset + 1) text) ≠ offset + 1 := by
        intro size
        rw [splitAtByte?_eq_some_iff.mpr ⟨whole.symm, size⟩] at inside
        exact inside rfl
      have one := isPrefix_takeFitting (offset + 1) (takeFitting_isPrefix offset text)
        (Nat.le_succ_of_le (byteLength_takeFitting_le offset text))
      have other := isPrefix_takeFitting offset (takeFitting_isPrefix (offset + 1) text) (by omega)
      rw [ih, one.eq_of_length_le other.length_le]

theorem firstLineFeed?_getD (text : List Char) :
    (firstLineFeed? text).getD (byteLength text) = byteLength (firstLine text) := by
  induction text with
  | nil => rfl
  | cons c text ih =>
    by_cases feed : c = '\n'
    · simp [firstLineFeed?, firstLine, feed, byteLength]
    · rw [firstLineFeed?, if_neg feed, byteLength, firstLine, List.takeWhile_cons_of_pos (by simpa using feed), byteLength]
      rw [firstLine] at ih
      rw [← ih]
      cases firstLineFeed? text <;> rfl

theorem lastLineFeed?_append_feed (text : List Char) : lastLineFeed? (text ++ ['\n']) = some (byteLength text) := by
  induction text with
  | nil => rfl
  | cons c text ih => rw [List.cons_append, lastLineFeed?, ih, byteLength]

theorem lastLineFeed?_append_other (text : List Char) {c : Char} (other : c ≠ '\n') :
    lastLineFeed? (text ++ [c]) = lastLineFeed? text := by
  induction text with
  | nil => simp [lastLineFeed?, other]
  | cons d text ih => rw [List.cons_append, lastLineFeed?, ih, lastLineFeed?]

theorem lastLine_split (text : List Char) :
    ∃ earlier, text = earlier ++ lastLine text ∧ '\n' ∉ lastLine text ∧
      (earlier = [] ∨ ∃ front, earlier = front ++ ['\n']) ∧
      ((lastLineFeed? text).map (· + 1)).getD 0 = byteLength earlier := by
  induction text using List.reverseRecOn with
  | nil => exact ⟨[], rfl, nofun, Or.inl rfl, rfl⟩
  | append_singleton text c ih =>
    by_cases feed : c = '\n'
    · subst feed
      refine ⟨text ++ ['\n'], ?_, ?_, Or.inr ⟨text, rfl⟩, ?_⟩
      · rw [lastLine_lineFeed, List.append_nil]
      · rw [lastLine_lineFeed]
        nofun
      · rw [lastLineFeed?_append_feed, byteLength_append]
        rfl
    · obtain ⟨earlier, whole, free, begins, found⟩ := ih
      refine ⟨earlier, ?_, ?_, begins, ?_⟩
      · rw [lastLine_other text feed, ← List.append_assoc, ← whole]
      · rw [lastLine_other text feed, List.mem_append, List.mem_singleton]
        rintro (inside | same)
        · exact free inside
        · exact feed same.symm
      · rw [lastLineFeed?_append_other text feed, found]

theorem firstLine_split (text : List Char) :
    ∃ later, text = firstLine text ++ later ∧ '\n' ∉ firstLine text ∧ (later = [] ∨ ∃ back, later = '\n' :: back) := by
  refine ⟨text.dropWhile (· ≠ '\n'), (List.takeWhile_append_dropWhile).symm, ?_, ?_⟩
  · intro inside
    have other := List.mem_takeWhile_imp inside
    simp at other
  · cases rest : text.dropWhile (· ≠ '\n') with
    | nil => exact Or.inl rfl
    | cons c back =>
      have stops : (text.dropWhile (· ≠ '\n')).head? = some c := by rw [rest, List.head?_cons]
      have feed := List.head?_dropWhile_not (fun d => decide (d ≠ '\n')) text
      rw [stops] at feed
      exact Or.inr ⟨back, by simpa using feed⟩

namespace Cut

variable (text : List Char) (offset : Nat)

theorem whole : text = (ofOffset text offset).before ++ (ofOffset text offset).after :=
  (List.prefix_iff_eq_append.mp (takeFitting_isPrefix offset text)).symm

theorem boundaryBelow_min :
    boundaryBelow text (min offset (byteLength text)) = byteLength (ofOffset text offset).before := by
  have fits := byteLength_takeFitting_le offset text
  have inside := byteLength_le_of_isPrefix (takeFitting_isPrefix offset text)
  have fits' := byteLength_takeFitting_le (min offset (byteLength text)) text
  have one := byteLength_le_of_isPrefix (isPrefix_takeFitting (min offset (byteLength text))
    (takeFitting_isPrefix offset text) (by omega))
  have other := byteLength_le_of_isPrefix (isPrefix_takeFitting offset
    (takeFitting_isPrefix (min offset (byteLength text)) text) (by omega))
  rw [boundaryBelow_eq]
  exact Nat.le_antisymm other one

theorem isLineAround (cut : Cut) : IsLineAround cut.before cut.after cut.sourceLine := by
  obtain ⟨earlier, before, free, begins, -⟩ := lastLine_split cut.before
  obtain ⟨later, after, free', ends⟩ := firstLine_split cut.after
  refine ⟨earlier, lastLine cut.before, firstLine cut.after, later, before, after, rfl, ?_, begins, ends⟩
  rw [sourceLine, List.mem_append]
  rintro (inside | inside)
  · exact free inside
  · exact free' inside

end Cut

theorem diagnostic_eq (source : String) (offset : Nat) (message : String) :
    diagnostic source offset message =
      diagnosticAt (.after (Cut.ofOffset source.toList offset).before) (Cut.ofOffset source.toList offset).sourceLine
        message := by
  unfold diagnostic diagnosticAt
  generalize Cut.ofOffset source.toList offset = cut
  have line : (Position.after cut.before).line = cut.line := Nat.add_comm _ _
  have column : (Position.after cut.before).column = cut.column := Nat.add_comm _ _
  have place : (Position.after cut.before).text = toString cut.line ++ ":" ++ toString cut.column := by
    rw [← line, ← column]
    rfl
  simp only [place, line, column, String.append_assoc]

theorem lineEnd_eq (offset : Nat) (text : List Char) :
    ((firstLineFeed? text).map (offset + ·)).getD (offset + byteLength text) = offset + byteLength (firstLine text) := by
  rw [← firstLineFeed?_getD]
  cases firstLineFeed? text <;> rfl

theorem slicedDiagnostic?_eq (source : String) (offset : Nat) (message : String) :
    slicedDiagnostic? source offset message = some (diagnostic source offset message) := by
  rw [diagnostic_eq]
  have whole := Cut.whole source.toList offset
  have found := Cut.boundaryBelow_min source.toList offset
  generalize Cut.ofOffset source.toList offset = cut at whole found
  obtain ⟨before, after⟩ := cut
  dsimp only at whole found
  obtain ⟨earlier, split, free, -, lineStart⟩ := lastLine_split before
  obtain ⟨later, split', -, -⟩ := firstLine_split after
  have front : source.toList = [] ++ (earlier ++ (lastLine before ++ after)) := by
    rw [whole, List.nil_append, ← List.append_assoc, ← split]
  have middle : source.toList = earlier ++ (lastLine before ++ after) := front
  have around : source.toList = earlier ++ ((lastLine before ++ firstLine after) ++ later) := by
    rw [middle, List.append_assoc, ← split']
  have first : slice? source.toList 0 (byteLength earlier) = some earlier := by
    rw [front]
    exact slice?_append [] earlier (lastLine before ++ after)
  have lead : slice? source.toList (byteLength earlier) (byteLength before) = some (lastLine before) := by
    have slice := slice?_append earlier (lastLine before) after
    rwa [← middle, ← split] at slice
  have line : slice? source.toList (byteLength earlier) (byteLength before + byteLength (firstLine after)) =
      some (lastLine before ++ firstLine after) := by
    have slice := slice?_append earlier (lastLine before ++ firstLine after) later
    rwa [← around, ← List.append_assoc, ← split, byteLength_append] at slice
  have lines : before.count '\n' = earlier.count '\n' := by
    rw [split, List.count_append, List.count_eq_zero.mpr free, Nat.add_zero]
  have halves : splitAtByte? source.toList (byteLength before) = some (before, after) := by
    rw [whole]
    exact splitAtByte?_append before after
  have lineEnd : ((firstLineFeed? after).map (byteLength before + ·)).getD (byteLength source.toList) =
      byteLength before + byteLength (firstLine after) := by
    rw [whole, byteLength_append, lineEnd_eq]
  have place : Position.after before = ⟨byteLength before, earlier.count '\n' + 1, (lastLine before).length + 1⟩ := by
    rw [Position.after, lines, Nat.add_comm 1, Nat.add_comm 1]
  simp only [slicedDiagnostic?, found, halves, lineStart, lineEnd, first, lead, line, place, Option.bind_eq_bind,
    Option.bind_some]
  rfl

end Text

open Text

/-- A diagnostic shows the place to which the lexer comes at the last character boundary up to its offset, and the line
    around it. For an error at a token this is the place where the token begins. -/
theorem diagnostics_place_like_lexer (source : String) :
    (∀ offset message, ∃ before after line, source.toList = before ++ after ∧
      byteLength before ≤ min offset source.utf8ByteSize ∧
      (∀ front back, source.toList = front ++ back → byteLength front ≤ min offset source.utf8ByteSize →
        byteLength front ≤ byteLength before) ∧
      IsLineAround before after line ∧
      (Position.start.advanceOver before).line + (Position.start.advanceOver before).column ≤ source.utf8ByteSize + 2 ∧
      slicedDiagnostic? source offset message = some (diagnostic source offset message) ∧
      diagnostic source offset message = diagnosticAt (Position.start.advanceOver before) line message) ∧
    (∀ lexed token (error : FilterError), tokenize source = .ok lexed → token ∈ lexed.tokens →
      error.offset? = some token.offset →
      ∃ before after line, source.toList = before ++ after ∧ byteLength before = token.offset ∧
        IsLineAround before after line ∧
        error.render source = diagnosticAt token.span.start line ("[" ++ error.code ++ "] " ++ error.message)) ∧
    (source.utf8ByteSize + 1 < 2 ^ 32 → ∀ before after, source.toList = before ++ after →
      (Position.start.advanceOver before).Fits32) := by
  refine ⟨?_, ?_, fun short before after whole => ?_⟩
  · intro offset message
    have whole := Cut.whole source.toList offset
    have size := byteLength_le_of_isPrefix ⟨_, whole.symm⟩
    have fits := byteLength_takeFitting_le offset source.toList
    rw [byteLength_toList] at size
    refine ⟨(Cut.ofOffset source.toList offset).before, (Cut.ofOffset source.toList offset).after, _, whole,
      Nat.le_min.mpr ⟨fits, size⟩, ?_, Cut.isLineAround _, ?_, slicedDiagnostic?_eq source offset message, ?_⟩
    · intro front back begins bounded
      exact byteLength_le_of_isPrefix
        (isPrefix_takeFitting _ ⟨back, begins.symm⟩ (Nat.le_trans bounded (Nat.min_le_left _ _)))
    · have counts := Position.line_add_column_le (Cut.ofOffset source.toList offset).before
      rw [Position.advanceOver_start]
      omega
    · rw [Position.advanceOver_start]
      exact diagnostic_eq source offset message
  · intro lexed token error read member placed
    obtain ⟨before, rest, whole, place⟩ := start_counts_of_tokenize read member
    have offset : byteLength before = token.offset := by
      rw [Spanned.offset, place]
      rfl
    have cut : (Cut.ofOffset source.toList token.offset).before = before := by
      have longest := isPrefix_takeFitting token.offset ⟨rest, whole.symm⟩ (Nat.le_of_eq offset)
      have fits := byteLength_takeFitting_le token.offset source.toList
      exact (eq_of_isPrefix_of_byteLength longest (by omega)).symm
    have split := Cut.whole source.toList token.offset
    have around := (Cut.ofOffset source.toList token.offset).isLineAround
    have text := diagnostic_eq source token.offset ("[" ++ error.code ++ "] " ++ error.message)
    rw [cut] at split around text
    refine ⟨before, _, _, split, offset, around, ?_⟩
    rw [place, ← text]
    simp only [FilterError.render, placed]
  · rw [Position.advanceOver_start]
    exact Position.Counts.fits32 ⟨before, after, whole, rfl⟩ short

theorem diagnostics_place_like_lexer_unbalanced :
    ∃ lexed token error, tokenize "tag.a\nand )" = .ok lexed ∧ token ∈ lexed.tokens ∧
      Filter.compile 64 "tag.a\nand )" = .error error ∧ error.offset? = some token.offset ∧
      token.span.start = ⟨10, 2, 5⟩ ∧
      ∃ before after line, "tag.a\nand )".toList = before ++ after ∧ byteLength before = 10 ∧
        IsLineAround before after line ∧
        error.render "tag.a\nand )" = diagnosticAt ⟨10, 2, 5⟩ line ("[" ++ error.code ++ "] " ++ error.message) := by
  let closing : Spanned Token := ⟨.closing, ⟨⟨10, 2, 5⟩, ⟨11, 2, 6⟩⟩⟩
  have tokens : (tokenize "tag.a\nand )").toOption.map (fun lexed => lexed.tokens[4]?) = some (some closing) := by
    decide +kernel
  have refused : Filter.compile 64 "tag.a\nand )" = .error (.parsing (.unbalancedParens 10)) := by decide +kernel
  obtain ⟨lexed, read, fourth⟩ := exists_tokenize tokens
  have member : closing ∈ lexed.tokens := List.mem_of_getElem? fourth
  exact ⟨lexed, closing, .parsing (.unbalancedParens 10), read, member, refused, rfl, rfl,
    (diagnostics_place_like_lexer "tag.a\nand )").2.1 lexed closing (.parsing (.unbalancedParens 10)) read member rfl⟩

example : diagnostic "ü\nä x" 4 "m" = "Error: m\n  --> 2:1\n   |\n2 | ä x\n   | ^\n" := by decide +kernel

end TagQuery
