import TagQuery.Proofs.DiagnosticPlaces

namespace TagQuery

namespace Text

/-- Whether a text ends with a line and below it another one whose first caret is at an index, each with its line feed. -/
def CaretAt (text above : List Char) (index : Nat) : Prop :=
  ∃ front below, text = front ++ '\n' :: (above ++ '\n' :: (below ++ ['\n'])) ∧ '\n' ∉ above ∧ '\n' ∉ below ∧
    '^' ∈ below ∧ below.idxOf '^' = index

def gutter (line : Nat) : List Char := (toString line).toList ++ " | ".toList

def shownLine (before after : List Char) : List Char :=
  gutter (before.count '\n' + 1) ++ (lastLine before ++ firstLine after)

/-- The index of the character after the place in that line, or just past the line where no character of it comes after
    the place. -/
def shownIndex (before : List Char) : Nat := (gutter (before.count '\n' + 1) ++ lastLine before).length

def caretLine (width column : Nat) : List Char :=
  ' ' :: (List.replicate width ' ' ++ (" | ".toList ++ (List.replicate column ' ' ++ ['^'])))

theorem lastLine_append (front : List Char) {line : List Char} (free : '\n' ∉ line) :
    lastLine (front ++ '\n' :: line) = line := by
  induction line using List.reverseRecOn with
  | nil => exact lastLine_lineFeed front
  | append_singleton line c ih =>
    rw [List.mem_append, List.mem_singleton, not_or] at free
    have split : front ++ '\n' :: (line ++ [c]) = (front ++ '\n' :: line) ++ [c] := by simp
    rw [split, lastLine_other _ (Ne.symm free.2), ih free.1]

theorem CaretAt.unique {text above above' : List Char} {index index' : Nat} (one : CaretAt text above index)
    (other : CaretAt text above' index') : above = above' ∧ index = index' := by
  obtain ⟨front, below, whole, free, free', -, rfl⟩ := one
  obtain ⟨front', below', whole', free'', free''', -, rfl⟩ := other
  have lines (front above below : List Char) :
      front ++ '\n' :: (above ++ '\n' :: (below ++ ['\n'])) = ((front ++ '\n' :: above) ++ '\n' :: below) ++ ['\n'] := by
    simp
  rw [whole, lines, lines, List.append_cancel_right_eq] at whole'
  have last := congrArg lastLine whole'
  rw [lastLine_append _ free', lastLine_append _ free'''] at last
  subst last
  rw [List.append_cancel_right_eq] at whole'
  have previous := congrArg lastLine whole'
  rw [lastLine_append _ free, lastLine_append _ free''] at previous
  exact ⟨previous, rfl⟩

theorem no_feed_gutter (line : Nat) : '\n' ∉ gutter line := by
  rw [gutter, List.mem_append, not_or]
  refine ⟨fun inside => ?_, by decide⟩
  have digits : '\n' ∈ Nat.toDigits 10 line := by simpa using inside
  exact absurd (Nat.isDigit_of_mem_toDigits (by decide) (by decide) digits) (by decide)

theorem no_feed_shownLine (before after : List Char) : '\n' ∉ shownLine before after := by
  obtain ⟨_, -, free, -⟩ := lastLine_split before
  obtain ⟨_, -, free', -⟩ := firstLine_split after
  simp only [shownLine, List.mem_append, not_or]
  exact ⟨no_feed_gutter _, free, free'⟩

theorem idxOf_caretLine (width column : Nat) : (caretLine width column).idxOf '^' = width + 3 + column + 1 := by
  have blanks : caretLine width column =
      (' ' :: (List.replicate width ' ' ++ (" | ".toList ++ List.replicate column ' '))) ++ ['^'] := by
    simp [caretLine]
  have before : '^' ∉ ' ' :: (List.replicate width ' ' ++ (" | ".toList ++ List.replicate column ' ')) := by simp
  rw [blanks, List.idxOf_append_of_notMem before]
  simp
  omega

theorem take_shownIndex (before after : List Char) :
    (shownLine before after).take (shownIndex before) = gutter (before.count '\n' + 1) ++ lastLine before := by
  rw [shownLine, shownIndex, ← List.append_assoc, List.take_left]

theorem drop_shownIndex (before after : List Char) :
    (shownLine before after).drop (shownIndex before) = firstLine after := by
  rw [shownLine, shownIndex, ← List.append_assoc, List.drop_left]

theorem Cut.ofOffset_byteLength (before after : List Char) :
    ofOffset (before ++ after) (byteLength before) = ⟨before, after⟩ := by
  have fits := isPrefix_takeFitting _ (List.prefix_append before after) (Nat.le_refl (byteLength before))
  have front := eq_of_isPrefix_of_byteLength fits (byteLength_takeFitting_le _ _)
  rw [ofOffset, ← front, List.drop_left]

theorem diagnostic_lines (before after : List Char) (message : String) :
    ∃ front, (diagnostic (.ofList (before ++ after)) (byteLength before) message).toList =
      front ++ '\n' :: (shownLine before after ++ '\n' ::
        (caretLine (toString (before.count '\n' + 1)).length (lastLine before).length ++ ['\n'])) := by
  unfold diagnostic
  rw [String.toList_ofList, Cut.ofOffset_byteLength]
  simp only [Cut.line, Cut.column, Cut.sourceLine, Nat.add_sub_cancel, shownLine, gutter]
  generalize toString (before.count '\n' + 1) = number
  generalize toString ((lastLine before).length + 1) = column
  have gap : " |\n".toList = " |".toList ++ ['\n'] := by decide
  have margin : "\n ".toList = ['\n', ' '] := by decide
  have caret : "^\n".toList = ['^', '\n'] := by decide
  -- what stands above the line of the source, up to its line feed
  refine ⟨("Error: " ++ message ++ "\n  --> " ++ number ++ ":" ++ column ++ "\n " ++ spaces number.length ++ " |").toList, ?_⟩
  simp only [caretLine, spaces, String.toList_append, String.toList_ofList, gap, margin, caret, List.append_assoc,
    List.cons_append, List.nil_append]

/-- In every diagnostic the caret stands one index to the right of the character that it is about, however wide the line
    number is: its gutter is that much longer. -/
theorem caret_stands_past_character (before after : List Char) (message : String) :
    CaretAt (diagnostic (.ofList (before ++ after)) (byteLength before) message).toList (shownLine before after)
      (shownIndex before + 1) ∧
    (shownLine before after).take (shownIndex before) = gutter (before.count '\n' + 1) ++ lastLine before ∧
    (shownLine before after).drop (shownIndex before) = firstLine after ∧
    ∀ above, ¬ CaretAt (diagnostic (.ofList (before ++ after)) (byteLength before) message).toList above
      (shownIndex before) := by
  have placed : CaretAt (diagnostic (.ofList (before ++ after)) (byteLength before) message).toList
      (shownLine before after) (shownIndex before + 1) := by
    obtain ⟨front, lines⟩ := diagnostic_lines before after message
    refine ⟨front, _, lines, no_feed_shownLine before after, by simp [caretLine], by simp [caretLine], ?_⟩
    rw [idxOf_caretLine, shownIndex, gutter, List.length_append, List.length_append, String.length_toList]
    rfl
  refine ⟨placed, take_shownIndex before after, drop_shownIndex before after, fun above under => ?_⟩
  have same := (placed.unique under).2
  omega

theorem caret_misses_character :
    diagnostic "tag.a and $" 10 "m" = "Error: m\n  --> 1:11\n   |\n1 | tag.a and $\n   |           ^\n" ∧
      "1 | tag.a and $".toList[14]? = some '$' ∧ "   |           ^".toList[15]? = some '^' ∧
      ¬ ∃ above, CaretAt (diagnostic "tag.a and $" 10 "m").toList above 14 := by
  refine ⟨by decide +kernel, by decide, by decide, ?_⟩
  rintro ⟨above, under⟩
  have text : diagnostic "tag.a and $" 10 "m" =
    "Error: m\n  --> 1:11\n   |\n1 | tag.a and $\n   |           ^\n" := by decide +kernel
  have placed : CaretAt (diagnostic "tag.a and $" 10 "m").toList "1 | tag.a and $".toList 15 := by
    rw [text]
    exact ⟨"Error: m\n  --> 1:11\n   |".toList, "   |           ^".toList, by decide, by decide, by decide, by decide,
      by decide⟩
  exact absurd (placed.unique under).2 (by decide)

end Text

end TagQuery
