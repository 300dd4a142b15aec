import Mathlib.Data.List.DropRight
import TagQuery.Log.Memory

namespace TagQuery

inductive LogCall
  | log (event : LogEvent)
  | clear
deriving DecidableEq, Repr

namespace LogCall

def event? : LogCall → Option LogEvent
  | .log event => some event
  | .clear => none

/-- The events that are logged after the last clearing. -/
def sinceClear (calls : List LogCall) : List LogEvent :=
  (calls.rtakeWhile fun call => call.event?.isSome).filterMap event?

def accepted (limit : LogLevel) (calls : List LogCall) : List LogEvent :=
  (sinceClear calls).filter fun event => event.level.rank ≤ limit.rank

variable (limit : LogLevel) (calls : List LogCall)

theorem accepted_log (event : LogEvent) :
    accepted limit (calls ++ [.log event]) =
      if event.level.rank ≤ limit.rank then accepted limit calls ++ [event] else accepted limit calls := by
  rw [accepted, sinceClear, List.rtakeWhile_concat_pos _ _ _ rfl, List.filterMap_append, List.filter_append]
  by_cases taken : event.level.rank ≤ limit.rank <;> simp [accepted, sinceClear, event?, taken]

theorem accepted_clear : accepted limit (calls ++ [.clear]) = [] := by
  rw [accepted, sinceClear, List.rtakeWhile_concat_neg _ _ _ Bool.false_ne_true]
  rfl

end LogCall

theorem length_rtake {α : Type} (size : Nat) (list : List α) : (list.rtake size).length = min size list.length := by
  rw [List.rtake, List.length_drop]
  omega

theorem rtake_append_rtake {α : Type} (size : Nat) (list : List α) (last : α) :
    (list.rtake size ++ [last]).rtake size = (list ++ [last]).rtake size := by
  simp only [List.rtake_eq_reverse_take_reverse, List.reverse_append, List.reverse_reverse, List.reverse_singleton,
    List.singleton_append]
  cases size with
  | zero => rfl
  | succ size => simp only [List.take_succ_cons, List.take_take, Nat.min_eq_left (Nat.le_succ size)]

namespace MemoryLog

def perform (limit : LogLevel) (log : MemoryLog) : LogCall → MemoryLog
  | .log event => recordAt limit log event
  | .clear => log.clear

def run (limit : LogLevel) (calls : List LogCall) : MemoryLog := calls.foldl (perform limit) {}

theorem toList_mk (events : Array LogEvent) : (MemoryLog.mk events).toList = events.toList := rfl

theorem toList_extract_size (events : Array LogEvent) (start : Nat) :
    (events.extract start events.size).toList = events.toList.drop start := by
  rw [Array.toList_extract, List.extract_eq_take_drop]
  exact List.take_of_length_le (by rw [List.length_drop, Array.length_toList])

/-- However many events a log has, adding one leaves the last of them that it has room for. -/
theorem toList_record (log : MemoryLog) (event : LogEvent) :
    (log.record event).toList = (log.toList ++ [event]).rtake Limits.logBuffer := by
  have some : 1 ≤ Limits.logBuffer := by decide
  have size : log.toList.length = log.events.size := rfl
  rw [List.rtake, List.length_append, List.length_singleton, size]
  unfold record
  split
  · rename_i free
    rw [Nat.sub_eq_zero_of_le free, List.drop_zero, toList_mk, Array.toList_push, toList]
  · rename_i full
    generalize Limits.logBuffer = room at some full ⊢
    have oldest : log.events.size + 1 - room = log.events.size - room + 1 := by omega
    have within : log.events.size - room + 1 ≤ log.toList.length := by omega
    rw [toList_mk, Array.toList_push, toList_extract_size, oldest, List.drop_append_of_le_length within, toList]

theorem toList_recordAt (limit : LogLevel) (log : MemoryLog) (event : LogEvent) :
    (recordAt limit log event).toList =
      if event.level.rank ≤ limit.rank then (log.toList ++ [event]).rtake Limits.logBuffer else log.toList := by
  simp only [recordAt, LogLevel.passes, decide_eq_true_eq]
  split
  · exact log.toList_record event
  · rfl

theorem toList_run (limit : LogLevel) (calls : List LogCall) :
    (run limit calls).toList = (LogCall.accepted limit calls).rtake Limits.logBuffer := by
  -- on the last call, which alone says whether the window moves on or starts anew
  induction calls using List.reverseRecOn with
  | nil => exact (List.rtake_nil _).symm
  | append_singleton calls call ih =>
    rw [run, List.foldl_append, List.foldl_cons, List.foldl_nil, ← run]
    cases call with
    | log event =>
      rw [perform, toList_recordAt, LogCall.accepted_log, ih]
      split
      · exact rtake_append_rtake _ _ _
      · rfl
    | clear =>
      rw [LogCall.accepted_clear, List.rtake_nil]
      rfl

/-- A log behind a level holds, of the events since it was last cleared that pass the level, the last 10000 in their
    order, and it is asked about no others. -/
theorem run_keeps_most_recent (limit : LogLevel) (calls : List LogCall) :
    let log := run limit calls
    let recent := (LogCall.accepted limit calls).rtake 10000
    log.toList = recent ∧ recent <:+ LogCall.accepted limit calls ∧
    log.count = min 10000 (LogCall.accepted limit calls).length ∧
    log.errors = recent.filter (·.level = .error) ∧ log.warnings = recent.filter (·.level = .warning) ∧
    ∀ code, log.withCode code = recent.filter (·.code = code) ∧
      (log.hasError code = true ↔ ∃ event ∈ recent, event.level = .error ∧ event.code = code) ∧
      (log.hasSuccess code = true ↔ ∃ event ∈ recent, event.level = .info ∧ event.code = code) := by
  intro log recent
  have held : log.toList = recent := toList_run limit calls
  refine ⟨held, List.drop_suffix _ _, (congrArg List.length held).trans (length_rtake _ _),
    congrArg (List.filter _) held, congrArg (List.filter _) held, fun code => ⟨congrArg (List.filter _) held, ?_, ?_⟩⟩
  · rw [hasError, held, List.any_eq_true]
    simp only [Bool.and_eq_true, decide_eq_true_eq]
  · rw [hasSuccess, held, List.any_eq_true]
    simp only [Bool.and_eq_true, decide_eq_true_eq]

theorem run_keeps_most_recent_warning :
    let calls : List LogCall := [.log (.error "E020" "before"), .clear, .log (.info "I061" "kept"),
      .log (.debug "D000" "dropped"), .log (.warning "W010" "kept too")]
    (run .info calls).toList = [.info "I061" "kept", .warning "W010" "kept too"] ∧ (run .info calls).count = 2 ∧
      (run .info calls).errors = [] ∧ (run .info calls).hasSuccess "I061" = true := by
  intro calls
  obtain ⟨held, -, count, errors, -, codes⟩ := run_keeps_most_recent .info calls
  have recent : (LogCall.accepted .info calls).rtake 10000 = [.info "I061" "kept", .warning "W010" "kept too"] := by
    decide +kernel
  refine ⟨held.trans recent, count.trans (by decide +kernel), errors.trans (by rw [recent]; rfl), ?_⟩
  rw [(codes "I061").2.2, recent]
  exact ⟨_, List.mem_cons_self, rfl, rfl⟩

end MemoryLog

end TagQuery
