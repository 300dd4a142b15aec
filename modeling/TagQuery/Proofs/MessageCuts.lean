import TagQuery.Log.Event
import TagQuery.Proofs.DiagnosticPlaces

namespace TagQuery

namespace Text

theorem byteLength_ascii {text : List Char} (ascii : ∀ c ∈ text, c.utf8Size = 1) : byteLength text = text.length := by
  induction text with
  | nil => rfl
  | cons c text ih =>
    rw [List.forall_mem_cons] at ascii
    rw [byteLength, List.length_cons, ascii.1, ih ascii.2, Nat.add_comm]

theorem exists_cut {bytes : Nat} {text : List Char} (long : bytes < byteLength text) :
    ∃ next rest, text = takeFitting bytes text ++ next :: rest ∧
      bytes < byteLength (takeFitting bytes text) + next.utf8Size := by
  obtain ⟨back, whole⟩ := takeFitting_isPrefix bytes text
  have fits := byteLength_takeFitting_le bytes text
  cases back with
  | nil =>
    rw [List.append_nil] at whole
    rw [whole] at fits
    omega
  | cons next rest =>
    refine ⟨next, rest, whole.symm, Nat.lt_of_not_le fun room => ?_⟩
    have size : byteLength (takeFitting bytes text ++ [next]) = byteLength (takeFitting bytes text) + next.utf8Size := by
      rw [byteLength_append]
      rfl
    -- with the next character it would still be a beginning that fits, and a longer one
    have begins : takeFitting bytes text ++ [next] <+: text := ⟨rest, by rw [List.append_assoc]; exact whole⟩
    have longer := (isPrefix_takeFitting bytes begins (size ▸ room)).length_le
    rw [List.length_append, List.length_singleton] at longer
    omega

theorem slice?_boundaryBelow (text : List Char) (offset : Nat) :
    slice? text 0 (boundaryBelow text offset) = some (takeFitting offset text) := by
  obtain ⟨back, whole⟩ := takeFitting_isPrefix offset text
  have split := slice?_append [] (takeFitting offset text) back
  rwa [List.nil_append, List.nil_append, whole, ← boundaryBelow_eq] at split

end Text

open Text

namespace LogEvent

theorem cutMessage_of_fits {message : String} (fits : message.utf8ByteSize ≤ Limits.logMessageBytes) :
    cutMessage message = message := if_pos fits

theorem cutMessage_of_long {message : String} (long : Limits.logMessageBytes < message.utf8ByteSize) :
    cutMessage message = String.ofList (takeFitting Limits.logMessageBytes message.toList) ++ "..." :=
  if_neg (Nat.not_le.mpr long)

theorem utf8ByteSize_marked (front : List Char) : (String.ofList front ++ "...").utf8ByteSize = byteLength front + 3 := by
  have front := byteLength_toList (String.ofList front)
  rw [String.toList_ofList] at front
  rw [String.utf8ByteSize_append, ← front]
  rfl

theorem utf8ByteSize_make_of_ascii (level : LogLevel) (code : String) {text : List Char}
    (ascii : ∀ c ∈ text, c.utf8Size = 1) (long : Limits.logMessageBytes < text.length) :
    (make level code (String.ofList text)).message.utf8ByteSize = Limits.logMessageBytes + 3 := by
  rw [← byteLength_ascii ascii] at long
  obtain ⟨next, rest, whole, past⟩ := exists_cut long
  have fits := byteLength_takeFitting_le Limits.logMessageBytes text
  have one : next.utf8Size = 1 := ascii next (whole ▸ List.mem_append_right _ List.mem_cons_self)
  rw [← String.toList_ofList (l := text), byteLength_toList] at long
  rw [make, cutMessage_of_long long, utf8ByteSize_marked, String.toList_ofList]
  omega

theorem utf8Size_of_mem_repeated {count : Nat} {c : Char} (member : c ∈ List.replicate count 'x') : c.utf8Size = 1 := by
  rw [(List.mem_replicate.mp member).2]
  rfl

/-- A message that is too long is cut between two characters, after as many of them as fit, and the mark comes on top of
    that. What is stored has 10000 to 10003 bytes: it keeps to the limit only if a character of four bytes ends one byte
    past it, and it is shorter than the message only if more is cut off than the mark takes. -/
theorem long_messages_marked_past_limit (level : LogLevel) (code message : String) :
    let stored := (make level code message).message
    (message.utf8ByteSize ≤ 10000 → stored = message) ∧
    (10000 < message.utf8ByteSize →
      ∃ front next rest, message.toList = front ++ next :: rest ∧ stored = String.ofList front ++ "..." ∧
        slice? message.toList 0 (boundaryBelow message.toList 10000) = some front ∧
        byteLength front ≤ 10000 ∧
        (∀ shown, shown <+: message.toList → byteLength shown ≤ 10000 → shown <+: front) ∧
        stored.utf8ByteSize = byteLength front + 3 ∧ 10000 ≤ stored.utf8ByteSize ∧ stored.utf8ByteSize ≤ 10003 ∧
        (stored.utf8ByteSize ≤ 10000 ↔ byteLength front = 9997 ∧ next.utf8Size = 4) ∧
        (stored.utf8ByteSize < message.utf8ByteSize ↔ 3 < byteLength (next :: rest))) := by
  intro stored
  refine ⟨cutMessage_of_fits, fun long => ?_⟩
  have marked : stored = String.ofList (takeFitting 10000 message.toList) ++ "..." := cutMessage_of_long long
  have size : stored.utf8ByteSize = byteLength (takeFitting 10000 message.toList) + 3 := by
    rw [marked, utf8ByteSize_marked]
  have fits := byteLength_takeFitting_le 10000 message.toList
  rw [← byteLength_toList] at long
  obtain ⟨next, rest, whole, past⟩ := exists_cut long
  have next_le := next.utf8Size_le_four
  have total : message.utf8ByteSize = byteLength (takeFitting 10000 message.toList) + byteLength (next :: rest) := by
    rw [← byteLength_append, ← whole, byteLength_toList]
  refine ⟨takeFitting 10000 message.toList, next, rest, whole, marked, slice?_boundaryBelow _ _, fits,
    fun shown => isPrefix_takeFitting 10000, size, ?_, ?_, ?_, ?_⟩
  all_goals omega

/-- A message of one-byte characters that is one byte too long is stored two bytes longer still. -/
theorem cut_message_grows_past_limit :
    let message := String.ofList (List.replicate 10001 'x')
    let stored := (make .info "I000" message).message
    message.utf8ByteSize = 10001 ∧ stored.utf8ByteSize = 10003 ∧
      ¬ (stored.utf8ByteSize ≤ 10000 ∧ stored.utf8ByteSize < message.utf8ByteSize) := by
  intro message stored
  have length : (List.replicate 10001 'x').length = 10001 := List.length_replicate
  have ascii : ∀ c ∈ List.replicate 10001 'x', c.utf8Size = 1 := fun _ => utf8Size_of_mem_repeated
  have size : message.utf8ByteSize = 10001 := by
    rw [← byteLength_toList, String.toList_ofList, byteLength_ascii ascii, length]
  have grown : stored.utf8ByteSize = 10003 := utf8ByteSize_make_of_ascii .info "I000" ascii (by rw [length]; decide)
  exact ⟨size, grown, by omega⟩

theorem long_messages_marked_past_limit_repeated :
    let message := String.ofList (List.replicate 10004 'x')
    let stored := (make .warning "W011" message).message
    10000 < message.utf8ByteSize ∧
      ∃ front next rest, message.toList = front ++ next :: rest ∧ stored = String.ofList front ++ "..." ∧
        byteLength front ≤ 10000 ∧ stored.utf8ByteSize = byteLength front + 3 ∧
        (stored.utf8ByteSize < message.utf8ByteSize ↔ 3 < byteLength (next :: rest)) := by
  intro message stored
  have long : 10000 < message.utf8ByteSize := by
    rw [← byteLength_toList, String.toList_ofList, byteLength_ascii fun _ => utf8Size_of_mem_repeated,
      List.length_replicate]
    decide
  obtain ⟨front, next, rest, whole, marked, -, fits, -, size, -, -, -, shorter⟩ :=
    (long_messages_marked_past_limit .warning "W011" message).2 long
  exact ⟨long, front, next, rest, whole, marked, fits, size, shorter⟩

end LogEvent

end TagQuery
