import TagQuery.Proofs.ReaderExact

namespace TagQuery

namespace Reader

theorem readAll_foldl {σ : Type} (follows : Reader → σ → Prop) (take : σ → Spanned Token → σ) {limit : Nat}
    (step : ∀ {reader next : Reader} {token : Spanned Token} {state : σ}, follows reader state →
      reader.read limit token = .ok next → follows next (take state token))
    {reader last : Reader} {tokens : List (Spanned Token)} (state : σ) (start : follows reader state)
    (read : reader.readAll limit tokens = .ok last) : follows last (tokens.foldl take state) := by
  induction tokens generalizing reader state with
  | nil => cases read; exact start
  | cons token rest ih =>
    cases taken : reader.read limit token with
    | error error => simp [readAll, taken] at read
    | ok next =>
      rw [readAll_cons taken] at read
      exact ih (take state token) (step start taken) read

inductive Turns (limit : Nat) (reader : Reader) (token : Spanned Token) (next : Reader) : Prop
  | opens (opening : token.value = .opening)
      (entered : next = ⟨{}, ⟨reader.level, token.offset⟩ :: reader.outer, .opened token.offset⟩)
  | closes (enclosing : Enclosing) (closing : token.value = .closing) (around : reader.outer = enclosing :: next.outer)
      (level : next.level = enclosing.level) (left : ∀ offset, next.phase ≠ .opened offset)
  | stays (noOpening : token.value ≠ .opening) (noClosing : token.value ≠ .closing) (outer : next.outer = reader.outer)
      (nots : next.level.nots ≤ reader.level.nots ∨ next.depth ≤ limit) (inside : ∀ offset, next.phase ≠ .opened offset)

section

variable {limit : Nat} {reader next : Reader} {token : Spanned Token}

theorem turns_of_phase {phase : Phase} (noOpening : token.value ≠ .opening) (noClosing : token.value ≠ .closing)
    (inside : ∀ offset, phase ≠ .opened offset) : Turns limit reader token { reader with phase } :=
  .stays noOpening noClosing rfl (Or.inl (Nat.le_refl _)) inside

theorem turns_of_dot {phase : Phase} (dot : token.value = .dot) (inside : ∀ offset, phase ≠ .opened offset) :
    Turns limit reader token { reader with phase } :=
  turns_of_phase (by simp [dot]) (by simp [dot]) inside

theorem turns_of_beginOperand (step : reader.beginOperand limit token = .ok next) : Turns limit reader token next := by
  unfold beginOperand at step
  split at step
  · rename_i negation
    obtain ⟨rfl, deeper⟩ := checkDepth_ok step
    exact .stays (by simp [negation]) (by simp [negation]) rfl (Or.inr deeper) nofun
  · rename_i opening
    cases step
    exact .opens opening rfl
  · rename_i text word
    split at step
    · cases step
      exact turns_of_phase (by simp [word]) (by simp [word]) nofun
    · cases step
  · cases step
  · cases step
  · split at step <;> cases step
  all_goals cases step

theorem turns_of_afterOperand {operand : Expr} (step : reader.afterOperand operand token = .ok next) :
    Turns limit reader token next := by
  unfold afterOperand at step
  split at step
  · rename_i joining
    cases step
    exact .stays (by simp [joining]) (by simp [joining]) rfl (Or.inl (Nat.zero_le _)) nofun
  · rename_i joining
    cases step
    exact .stays (by simp [joining]) (by simp [joining]) rfl (Or.inl (Nat.zero_le _)) nofun
  · rename_i closing
    split at step
    · cases step
    · rename_i enclosing outer around
      cases step
      exact .closes enclosing closing around rfl nofun
  · split at step <;> cases step

theorem turns_of_readSegment {path : List String} (step : reader.readSegment path token = .ok next) :
    Turns limit reader token next := by
  unfold readSegment at step
  split at step
  · cases step
  · rename_i segment spelled
    have noOpening : token.value ≠ .opening := fun opening => by simp [opening, Token.segment?] at spelled
    have noClosing : token.value ≠ .closing := fun closing => by simp [closing, Token.segment?] at spelled
    split at step
    · cases step
      exact turns_of_phase noOpening noClosing nofun
    · cases step
      exact turns_of_phase noOpening noClosing nofun

theorem turns_of_read (step : reader.read limit token = .ok next) : Turns limit reader token next := by
  unfold Reader.read at step
  split at step
  case h_1 | h_2 => exact turns_of_beginOperand step
  case h_3 offset phase =>
    split at step
    · cases step
    · cases checked : reader.checkDepth limit offset with
      | error error => rw [checked] at step; cases step
      | ok same =>
        obtain ⟨rfl, -⟩ := checkDepth_ok checked
        rw [checked] at step
        exact turns_of_beginOperand step
  case h_4 phase =>
    split at step
    · rename_i dot
      cases step
      exact turns_of_dot dot nofun
    · cases step
  case h_5 path phase => exact turns_of_readSegment step
  case h_6 path phase =>
    split at step
    · rename_i dot
      cases step
      exact turns_of_dot dot nofun
    · exact turns_of_afterOperand step
  case h_7 key op phase =>
    split at step
    · rename_i dot
      cases step
      exact turns_of_dot dot nofun
    · cases step
  case h_8 key op phase =>
    split at step
    · rename_i text operand number
      cases step
      exact turns_of_phase (by simp [number]) (by simp [number]) nofun
    · cases step
  case h_9 key op operand phase =>
    split at step
    · rename_i dot
      cases step
      exact turns_of_dot dot nofun
    · exact turns_of_afterOperand step
  case h_10 => cases step
  case h_11 group phase => exact turns_of_afterOperand step

end

/-- Whether the nesting around the current token is within a limit. A group that was just opened is not yet checked. -/
def Within (limit : Nat) (reader : Reader) : Prop :=
  match reader.phase with
  | .opened _ => reader.depth ≤ limit + 1
  | _ => reader.depth ≤ limit

section

variable {limit : Nat} {reader next : Reader} {token : Spanned Token}

theorem within_start (limit : Nat) : Within limit {} := Nat.zero_le limit

theorem within_of_depth (fits : reader.depth ≤ limit) : reader.Within limit := by
  unfold Within
  split
  · exact Nat.le_succ_of_le fits
  · exact fits

theorem Within.depth_le (within : reader.Within limit) (inside : ∀ offset, reader.phase ≠ .opened offset) :
    reader.depth ≤ limit := by
  unfold Within at within
  split at within
  · rename_i offset phase
    exact absurd phase (inside offset)
  · exact within

theorem Within.depth_of_read (within : reader.Within limit) (step : reader.read limit token = .ok next) :
    reader.depth ≤ limit := by
  cases phase : reader.phase with
  | opened offset =>
    simp only [Reader.read, phase] at step
    split at step
    · cases step
    · cases checked : reader.checkDepth limit offset with
      | error error => rw [checked] at step; cases step
      | ok same => exact (checkDepth_ok checked).2
  | _ => exact within.depth_le (by simp [phase])

theorem Within.read (within : reader.Within limit) (step : reader.read limit token = .ok next) : next.Within limit := by
  have fits := within.depth_of_read step
  rw [depth_eq] at fits
  cases turns_of_read step with
  | opens _ entered =>
    subst entered
    show depth _ ≤ limit + 1
    rw [depth_eq]
    simp only [around]
    omega
  | closes enclosing _ surrounding level =>
    refine within_of_depth ?_
    rw [surrounding, around] at fits
    rw [depth_eq, level]
    omega
  | stays _ _ outer nots =>
    refine within_of_depth ?_
    rcases nots with fewer | deeper
    · rw [depth_eq, outer]
      omega
    · exact deeper

theorem Within.readAll {tokens : List (Spanned Token)} {last : Reader} (within : reader.Within limit)
    (read : reader.readAll limit tokens = .ok last) : last.Within limit :=
  readAll_foldl (fun reader _ => reader.Within limit) (fun _ _ => ()) Within.read () within read

end

/-- Whether the operand that is being read can still be completed: the nesting is within the limit, and no path goes on
    after the number of a comparison. -/
def Viable (limit : Nat) (reader : Reader) : Prop := reader.depth ≤ limit ∧ reader.phase ≠ .comparedPoint

inductive Refusal (limit : Nat) (reader : Reader) (token : Spanned Token) : ParseError → Prop
  | empty (offset : Nat) : Refusal limit reader token (.emptyExpression offset)
  | deep (offset depth : Nat) : Refusal limit reader token (.nestingTooDeep offset depth limit)
  | operand : Refusal limit reader token (invalidOperand token)
  | unexpected (expected : String) (viable : reader.Viable limit) : Refusal limit reader token (unexpected token expected)
  | trailing (viable : reader.Viable limit) :
      Refusal limit reader token (.trailingTokens token.offset token.value.describe)
  | unbalanced (viable : reader.Viable limit) (closing : token.value = .closing) (outermost : reader.outer = []) :
      Refusal limit reader token (.unbalancedParens token.offset)

section

variable {limit : Nat} {reader : Reader} {token : Spanned Token} {error : ParseError}

theorem Viable.refusal_of_beginOperand (viable : reader.Viable limit)
    (refused : reader.beginOperand limit token = .error error) : Refusal limit reader token error := by
  unfold beginOperand at refused
  split at refused
  · unfold checkDepth at refused
    split at refused
    · cases refused
    · cases refused
      exact .deep _ _
  · cases refused
  · split at refused
    · cases refused
    · cases refused
      exact .unexpected _ viable
  · cases refused
    exact .unexpected _ viable
  · cases refused
    exact .unexpected _ viable
  · rename_i closing
    split at refused
    · rename_i outermost
      cases refused
      exact .unbalanced viable closing (List.isEmpty_iff.mp outermost)
    · cases refused
      exact .unexpected _ viable
  all_goals
    cases refused
    exact .unexpected _ viable

theorem Viable.refusal_of_afterOperand {operand : Expr} (viable : reader.Viable limit)
    (refused : reader.afterOperand operand token = .error error) : Refusal limit reader token error := by
  unfold afterOperand at refused
  split at refused
  · cases refused
  · cases refused
  · rename_i closing
    split at refused
    · rename_i outermost
      cases refused
      exact .unbalanced viable closing outermost
    · cases refused
  · split at refused
    · cases refused
      exact .trailing viable
    · cases refused
      exact .unexpected _ viable

theorem Viable.refusal_of_readSegment {path : List String} (viable : reader.Viable limit)
    (refused : reader.readSegment path token = .error error) : Refusal limit reader token error := by
  unfold readSegment at refused
  split at refused
  · cases refused
    exact .unexpected _ viable
  · split at refused <;> cases refused

theorem Within.viable {phase : Phase} (within : reader.Within limit) (current : reader.phase = phase)
    (inside : ∀ offset, phase ≠ .opened offset) (goesOn : phase ≠ .comparedPoint) : reader.Viable limit :=
  ⟨within.depth_le (by rw [current]; exact inside), by rw [current]; exact goesOn⟩

/-- A token is refused where the operand before it can still be completed, unless a number is missing or the nesting
    goes past the limit. -/
theorem Within.refusal (within : reader.Within limit) (refused : reader.read limit token = .error error) :
    Refusal limit reader token error := by
  unfold Reader.read at refused
  split at refused
  case h_1 phase | h_2 phase =>
    exact (within.viable phase (by simp) (by simp)).refusal_of_beginOperand refused
  case h_3 offset phase =>
    split at refused
    · cases refused
      exact .empty _
    · by_cases fits : reader.depth ≤ limit
      · have viable : reader.Viable limit := ⟨fits, by simp [phase]⟩
        rw [checkDepth, if_pos fits] at refused
        exact viable.refusal_of_beginOperand refused
      · rw [checkDepth, if_neg fits] at refused
        cases refused
        exact .deep _ _
  case h_4 phase =>
    split at refused
    · cases refused
    · cases refused
      exact .unexpected _ (within.viable phase (by simp) (by simp))
  case h_5 path phase => exact (within.viable phase (by simp) (by simp)).refusal_of_readSegment refused
  case h_6 path phase =>
    split at refused
    · cases refused
    · exact (within.viable phase (by simp) (by simp)).refusal_of_afterOperand refused
  case h_7 key op phase =>
    split at refused
    · cases refused
    · cases refused
      exact .operand
  case h_8 key op phase =>
    split at refused
    · cases refused
    · cases refused
      exact .operand
  case h_9 key op operand phase =>
    split at refused
    · cases refused
    · exact (within.viable phase (by simp) (by simp)).refusal_of_afterOperand refused
  case h_10 =>
    cases refused
    exact .operand
  case h_11 group phase => exact (within.viable phase (by simp) (by simp)).refusal_of_afterOperand refused

end

inductive Ending (limit : Nat) (reader : Reader) (stop : Nat) : Except ParseError Expr → Prop
  | whole (expr : Expr) (outermost : reader.outer = []) : Ending limit reader stop (.ok expr)
  | unclosed (enclosing : Enclosing) (outer : List Enclosing) (around : reader.outer = enclosing :: outer) :
      Ending limit reader stop (.error (.unbalancedParens enclosing.offset))
  | opened (offset : Nat) (phase : reader.phase = .opened offset) :
      Ending limit reader stop (.error (.unbalancedParens offset))
  | empty : Ending limit reader stop (.error (.emptyExpression stop))
  | operand (found : String) : Ending limit reader stop (.error (.invalidOperand stop found))
  | unexpected (found expected : String) (viable : reader.Viable limit) :
      Ending limit reader stop (.error (.unexpectedToken stop found expected))

theorem ending_of_complete (limit stop : Nat) (reader : Reader) (operand : Expr) :
    Ending limit reader stop (reader.complete operand) := by
  unfold complete
  split
  · rename_i outermost
    exact .whole _ outermost
  · rename_i enclosing outer around
    exact .unclosed enclosing outer around

theorem Within.ending {limit : Nat} {reader : Reader} (within : reader.Within limit) (stop : Nat) :
    Ending limit reader stop (reader.finish stop) := by
  unfold finish
  split
  case h_1 => exact .empty
  case h_2 phase | h_4 phase | h_5 phase => exact .unexpected _ _ (within.viable phase (by simp) (by simp))
  case h_3 offset phase => exact .opened offset phase
  case h_6 | h_10 | h_11 => exact ending_of_complete limit stop reader _
  case h_7 | h_8 | h_9 => exact .operand _

def CutOff {α : Type} (limit : Nat) (result : Except ParseError α) : Prop :=
  ∃ offset, result = .error (.nestingTooDeep offset (limit + 1) limit)

section

variable {limit wider : Nat} {reader : Reader} (wide : limit ≤ wider)
include wide

theorem checkDepth_of_le (offset : Nat) (pending : reader.depth ≤ limit + 1) :
    reader.checkDepth wider offset = reader.checkDepth limit offset ∨ CutOff limit (reader.checkDepth limit offset) := by
  unfold checkDepth
  by_cases fits : reader.depth ≤ limit
  · rw [if_pos fits, if_pos (Nat.le_trans fits wide)]
    exact Or.inl rfl
  · have deep : reader.depth = limit + 1 := by omega
    rw [if_neg fits, deep]
    exact Or.inr ⟨offset, rfl⟩

theorem beginOperand_of_le (token : Spanned Token) (fits : reader.depth ≤ limit) :
    reader.beginOperand wider token = reader.beginOperand limit token ∨ CutOff limit (reader.beginOperand limit token) := by
  unfold beginOperand
  split
  · refine checkDepth_of_le wide token.offset ?_
    rw [depth_eq] at fits ⊢
    show reader.level.nots + 1 + around reader.outer ≤ limit + 1
    omega
  all_goals exact Or.inl rfl

theorem Within.read_of_le (within : reader.Within limit) (token : Spanned Token) :
    reader.read wider token = reader.read limit token ∨ CutOff limit (reader.read limit token) := by
  unfold Within at within
  unfold Reader.read
  cases phase : reader.phase with
  | start | operand =>
    simp only [phase] at within ⊢
    exact beginOperand_of_le wide token within
  | opened offset =>
    simp only [phase] at within ⊢
    split
    · exact Or.inl rfl
    · rcases checkDepth_of_le wide offset within with same | ⟨place, cut⟩
      · rw [same]
        cases checked : reader.checkDepth limit offset with
        | error error => exact Or.inl rfl
        | ok next =>
          obtain ⟨rfl, fits⟩ := checkDepth_ok checked
          exact beginOperand_of_le wide token fits
      · rw [cut]
        exact Or.inr ⟨place, rfl⟩
  | _ => exact Or.inl rfl

theorem Within.run_of_le (within : reader.Within limit) (endOffset : Nat) (tokens : List (Spanned Token)) :
    reader.run wider endOffset tokens = reader.run limit endOffset tokens ∨
      CutOff limit (reader.run limit endOffset tokens) := by
  induction tokens generalizing reader with
  | nil => exact Or.inl rfl
  | cons token rest ih =>
    unfold Reader.run
    split
    · exact Or.inl rfl
    · rcases within.read_of_le wide token with same | ⟨offset, cut⟩
      · rw [same]
        cases step : reader.read limit token with
        | error error => exact Or.inl rfl
        | ok next => exact ih (within.read step)
      · rw [cut]
        exact Or.inr ⟨offset, rfl⟩

end

inductive Stops (limit endOffset : Nat) (reader : Reader) (tokens : List (Spanned Token))
    (result : Except ParseError Expr) : Prop
  | refused (front rest : List (Spanned Token)) (token : Spanned Token) (last : Reader) (error : ParseError)
      (whole : tokens = front ++ token :: rest) (free : ∀ token ∈ front, token.value.isEof = false)
      (read : reader.readAll limit front = .ok last) (present : token.value.isEof = false)
      (refusal : last.read limit token = .error error) (outcome : result = .error error)
  | ended (front back : List (Spanned Token)) (last : Reader)
      (whole : tokens = front ++ back) (free : ∀ token ∈ front, token.value.isEof = false)
      (read : reader.readAll limit front = .ok last) (atEnd : ∀ token ∈ back.head?, token.value.isEof = true)
      (outcome : result = last.finish ((back.head?.map (·.offset)).getD endOffset))

theorem run_stops (limit endOffset : Nat) (reader : Reader) (tokens : List (Spanned Token)) :
    Stops limit endOffset reader tokens (reader.run limit endOffset tokens) := by
  induction tokens generalizing reader with
  | nil => exact .ended [] [] reader rfl nofun rfl nofun rfl
  | cons token rest ih =>
    cases marker : token.value.isEof with
    | true =>
      refine .ended [] (token :: rest) reader rfl nofun rfl ?_ (by simp [run, marker])
      simpa using marker
    | false =>
      cases step : reader.read limit token with
      | error error =>
        exact .refused [] rest token reader error rfl nofun rfl marker step (by simp [run, marker, step])
      | ok next =>
        have same : reader.run limit endOffset (token :: rest) = next.run limit endOffset rest := by
          simp [run, marker, step]
        have first (front : List (Spanned Token)) (free : ∀ token ∈ front, token.value.isEof = false) :
            ∀ other ∈ token :: front, other.value.isEof = false := List.forall_mem_cons.mpr ⟨marker, free⟩
        rw [same]
        cases ih next with
        | refused front rest token last error whole free read present refusal outcome =>
          exact .refused (_ :: front) rest token last error (congrArg _ whole) (first front free)
            ((readAll_cons step).trans read) present refusal outcome
        | ended front back last whole free read atEnd outcome =>
          exact .ended (_ :: front) back last (congrArg _ whole) (first front free) ((readAll_cons step).trans read) atEnd
            outcome

end Reader

theorem Expr.stops_of_ofTokens {limit : Nat} {tokens : List (Spanned Token)} {result : Except ParseError Expr}
    (read : ofTokens limit tokens = result) :
    Reader.Stops (Limits.clampNesting limit) (Cursor.endOffset tokens) {} tokens result := by
  rw [← read]
  exact Reader.run_stops _ _ _ _

end TagQuery
