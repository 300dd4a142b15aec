import Mathlib.Data.List.Forall2
import TagQuery.Filter.Trace

namespace TagQuery

inductive Stage
  | lexing
  | parsing
  | checking
deriving DecidableEq, Repr

namespace Stage

def order : List Stage := [lexing, parsing, checking]

def code : Stage → String
  | .lexing => "I020"
  | .parsing => "I040"
  | .checking => "I060"

def Succeeds (limit : Nat) (source : String) : Stage → Prop
  | .lexing => ∃ lexed, tokenize source = .ok lexed
  | .parsing => ∃ lexed expr, tokenize source = .ok lexed ∧ Expr.ofTokens limit lexed.tokens = .ok expr
  | .checking => ∃ lexed expr, tokenize source = .ok lexed ∧ Expr.ofTokens limit lexed.tokens = .ok expr ∧
      expr.check limit = .ok ()

end Stage

def Logged.received {α : Type} (limit : LogLevel) (logged : Logged α) : List LogEvent :=
  logged.events.filter fun event => event.level.passes limit

namespace LogEvent

def Marks (event : LogEvent) (stage : Stage) : Prop := event.level = .debug ∧ event.code = stage.code

def Blames (event : LogEvent) (error : FilterError) : Prop :=
  event.level = .error ∧ event.code = error.code ∧ event.offset = error.offset?

/-- Whether an event says what a compilation comes to. -/
def Concludes (event : LogEvent) : Except FilterError Filter → Prop
  | .ok _ => event.level = .info ∧ event.code = "I061"
  | .error error => event.Blames error

end LogEvent

def Logged.Reports {α ε : Type} (stage : Stage) (wrap : ε → FilterError) (logged : Logged (Except ε α)) : Prop :=
  ∃ event, logged.events = [event] ∧
    match logged.value with
    | .ok _ => event.Marks stage
    | .error error => event.Blames (wrap error)

theorem tokenizeLogged_value (source : String) : (tokenizeLogged source).value = tokenize source := rfl

theorem tokenizeLogged_reports (source : String) : (tokenizeLogged source).Reports .lexing .lexing := by
  refine ⟨_, rfl, ?_⟩
  rw [tokenizeLogged_value]
  cases tokenize source with
  | ok lexed => exact ⟨rfl, rfl⟩
  | error error => exact ⟨rfl, rfl, rfl⟩

namespace Expr

theorem ofTokensLogged_value (limit : Nat) (tokens : List (Spanned Token)) :
    (ofTokensLogged limit tokens).value = ofTokens limit tokens := rfl

theorem ofTokensLogged_reports (limit : Nat) (tokens : List (Spanned Token)) :
    (ofTokensLogged limit tokens).Reports .parsing .parsing := by
  refine ⟨_, rfl, ?_⟩
  rw [ofTokensLogged_value]
  cases ofTokens limit tokens with
  | ok expr => exact ⟨rfl, rfl⟩
  | error error => exact ⟨rfl, rfl, rfl⟩

theorem checkLogged_value (limit : Nat) (expr : Expr) : (expr.checkLogged limit).value = expr.check limit := rfl

theorem checkLogged_reports (limit : Nat) (expr : Expr) : (expr.checkLogged limit).Reports .checking .validity := by
  refine ⟨_, rfl, ?_⟩
  rw [checkLogged_value]
  cases expr.check limit with
  | ok => exact ⟨rfl, rfl⟩
  | error error => exact ⟨rfl, rfl, rfl⟩

end Expr

namespace Filter

def lengthWarnings (source : String) : List LogEvent :=
  if Limits.recommendedLength < source.length then [lengthWarning source] else []

theorem warnings_of_length (source : String) :
    (Logged.when (Limits.recommendedLength < source.length) (lengthWarning source)).events = lengthWarnings source := by
  simp only [Logged.when, lengthWarnings, decide_eq_true_eq]

/-- A compilation logs its warnings, then the stages that succeed, then what it comes to. -/
theorem compileLogged_events (limit : Nat) (source : String) :
    ∃ stages progress final, (compileLogged limit source).events = lengthWarnings source ++ (progress ++ [final]) ∧
      List.Forall₂ LogEvent.Marks progress stages ∧ stages <+: Stage.order ∧
      (∀ stage, stage ∈ stages ↔ stage.Succeeds limit source) ∧
      final.Concludes (compileLogged limit source).value := by
  -- a stage that fails is the last to log, so the cases nest as the stages do
  obtain ⟨lexing, lexEvents, lexReport⟩ := tokenizeLogged_reports source
  rw [tokenizeLogged_value] at lexReport
  simp only [compileLogged, Logged.events_bind, Logged.value_bind, lexEvents, tokenizeLogged_value, warnings_of_length]
  cases lexed : tokenize source with
  | error error =>
    rw [lexed] at lexReport
    refine ⟨[], [], lexing, rfl, .nil, List.nil_prefix, fun stage => ?_, lexReport⟩
    cases stage <;> simp [Stage.Succeeds, lexed]
  | ok lexed' =>
    rw [lexed] at lexReport
    obtain ⟨parsing, parseEvents, parseReport⟩ := Expr.ofTokensLogged_reports limit lexed'.tokens
    rw [Expr.ofTokensLogged_value] at parseReport
    simp only [Logged.events_bind, Logged.value_bind, parseEvents, Expr.ofTokensLogged_value]
    cases parsed : Expr.ofTokens limit lexed'.tokens with
    | error error =>
      rw [parsed] at parseReport
      refine ⟨[.lexing], [lexing], parsing, rfl, .cons lexReport .nil, ⟨_, rfl⟩, fun stage => ?_, parseReport⟩
      cases stage <;> simp [Stage.Succeeds, lexed, parsed]
    | ok expr =>
      rw [parsed] at parseReport
      obtain ⟨checking, checkEvents, checkReport⟩ := Expr.checkLogged_reports limit expr
      rw [Expr.checkLogged_value] at checkReport
      simp only [Logged.events_bind, Logged.value_bind, checkEvents, Expr.checkLogged_value]
      cases checked : expr.check limit with
      | error error =>
        rw [checked] at checkReport
        refine ⟨[.lexing, .parsing], [lexing, parsing], checking, rfl, .cons lexReport (.cons parseReport .nil), ⟨_, rfl⟩,
          fun stage => ?_, checkReport⟩
        cases stage <;> simp [Stage.Succeeds, lexed, parsed, checked]
      | ok =>
        rw [checked] at checkReport
        refine ⟨Stage.order, [lexing, parsing, checking], _, rfl,
          .cons lexReport (.cons parseReport (.cons checkReport .nil)), List.prefix_rfl, fun stage => ?_, rfl, rfl⟩
        cases stage <;> simp [Stage.Succeeds, Stage.order, lexed, parsed, checked]

theorem eq_of_mem_lengthWarnings {source : String} {event : LogEvent} (member : event ∈ lengthWarnings source) :
    event = lengthWarning source := by
  unfold lengthWarnings at member
  split at member
  · exact List.mem_singleton.mp member
  · cases member

theorem lengthWarnings_level (source : String) : ∀ event ∈ lengthWarnings source, event.level = .warning := by
  intro event member
  rw [eq_of_mem_lengthWarnings member]
  rfl

end Filter

namespace LogEvent

theorem Concludes.level_ne_warning {event : LogEvent} {result : Except FilterError Filter}
    (concludes : event.Concludes result) : event.level ≠ .warning := by
  cases result with
  | ok => rw [concludes.1]; nofun
  | error error => rw [concludes.1]; nofun

theorem filter_level_eq_nil {events : List LogEvent} {level other : LogLevel} (all : ∀ event ∈ events, event.level = level)
    (differs : level ≠ other) : events.filter (·.level = other) = [] := by
  refine List.filter_eq_nil_iff.mpr fun event member => ?_
  simpa [all event member] using differs

variable {progress : List LogEvent} {stages : List Stage}

theorem level_of_marks (marked : List.Forall₂ Marks progress stages) : ∀ event ∈ progress, event.level = .debug := by
  induction marked with
  | nil => nofun
  | cons first _ ih => exact List.forall_mem_cons.mpr ⟨first.1, ih⟩

theorem codes_of_marks (marked : List.Forall₂ Marks progress stages) : progress.map (·.code) = stages.map Stage.code := by
  induction marked with
  | nil => rfl
  | cons first _ ih => rw [List.map_cons, List.map_cons, first.2, ih]

theorem code_ne_of_marks (marked : List.Forall₂ Marks progress stages) : ∀ event ∈ progress, event.code ≠ "I061" := by
  intro event member
  have among := List.mem_map_of_mem (f := LogEvent.code) member
  rw [codes_of_marks marked] at among
  obtain ⟨stage, -, same⟩ := List.mem_map.mp among
  rw [← same]
  cases stage <;> decide

end LogEvent

theorem Logged.received_debug {α : Type} (logged : Logged α) : logged.received .debug = logged.events := by
  refine List.filter_eq_self.mpr fun event _ => ?_
  cases event.level <;> rfl

namespace Filter

theorem filter_code_eq_final {source : String} {progress : List LogEvent} {stages : List Stage} {final : LogEvent}
    (marked : List.Forall₂ LogEvent.Marks progress stages) (code : final.code = "I061") :
    (lengthWarnings source ++ (progress ++ [final])).filter (·.code = "I061") = [final] := by
  have before : (lengthWarnings source).filter (·.code = "I061") = [] := by
    refine List.filter_eq_nil_iff.mpr fun event member => ?_
    rw [eq_of_mem_lengthWarnings member, show (lengthWarning source).code = "W010" from rfl]
    decide
  have between : progress.filter (·.code = "I061") = [] :=
    List.filter_eq_nil_iff.mpr fun event member => by simpa using LogEvent.code_ne_of_marks marked event member
  have last : [final].filter (·.code = "I061") = [final] := List.filter_cons_of_pos (decide_eq_true code)
  rw [List.filter_append, List.filter_append, before, between, last]
  rfl

theorem filter_level_eq_warnings {source : String} {progress : List LogEvent} {final : LogEvent}
    (marking : ∀ event ∈ progress, event.level = .debug) (noWarning : final.level ≠ .warning) :
    (lengthWarnings source ++ (progress ++ [final])).filter (·.level = .warning) = lengthWarnings source := by
  have before : (lengthWarnings source).filter (·.level = .warning) = lengthWarnings source :=
    List.filter_eq_self.mpr fun event member => decide_eq_true (lengthWarnings_level source event member)
  have between : progress.filter (·.level = .warning) = [] := LogEvent.filter_level_eq_nil marking nofun
  have last : [final].filter (·.level = .warning) = [] := List.filter_cons_of_neg (by simpa using noWarning)
  rw [List.filter_append, List.filter_append, before, between, last]
  exact List.append_nil _

theorem filter_level_eq_final {source : String} {progress : List LogEvent} (final : LogEvent)
    (marking : ∀ event ∈ progress, event.level = .debug) :
    (lengthWarnings source ++ (progress ++ [final])).filter (·.level = .error) = [final].filter (·.level = .error) := by
  have before : (lengthWarnings source).filter (·.level = .error) = [] :=
    LogEvent.filter_level_eq_nil (lengthWarnings_level source) nofun
  have between : progress.filter (·.level = .error) = [] := LogEvent.filter_level_eq_nil marking nofun
  rw [List.filter_append, List.filter_append, before, between]
  rfl

/-- The log of a compilation at its lowest level tells what the compilation comes to and how far it came. -/
theorem trace_tells_result (limit : Nat) (source : String) :
    let trace := (compileLogged limit source).received .debug
    ∃ (warnings : List LogEvent) (stages : List Stage) (progress : List LogEvent) (final : LogEvent),
      trace = warnings ++ (progress ++ [final]) ∧
      warnings.length ≤ 1 ∧ (warnings ≠ [] ↔ 2047 < source.length) ∧ trace.filter (·.level = .warning) = warnings ∧
      progress.map (·.code) <+: ["I020", "I040", "I060"] ∧ progress.map (·.code) = stages.map Stage.code ∧
      (∀ stage, stage ∈ stages ↔ stage.Succeeds limit source) ∧
      match (compileLogged limit source).value with
      | .ok _ =>
        trace.filter (·.level = .error) = [] ∧ trace.filter (·.code = "I061") = [final] ∧ final.level = .info
      | .error error =>
        trace.filter (·.level = .error) = [final] ∧ final.code = error.code ∧ final.offset = error.offset? := by
  intro trace
  obtain ⟨stages, progress, final, events, marked, inOrder, succeeded, concludes⟩ := compileLogged_events limit source
  have whole : trace = lengthWarnings source ++ (progress ++ [final]) := (Logged.received_debug _).trans events
  have marking := LogEvent.level_of_marks marked
  have codes := LogEvent.codes_of_marks marked
  rw [whole]
  refine ⟨lengthWarnings source, stages, progress, final, rfl, ?_, ?_,
    filter_level_eq_warnings marking concludes.level_ne_warning, ?_, codes, succeeded, ?_⟩
  · unfold lengthWarnings
    split <;> simp
  · unfold lengthWarnings
    split <;> simp_all [Limits.recommendedLength]
  · rw [codes]
    exact inOrder.map Stage.code
  · rw [filter_level_eq_final final marking]
    cases result : (compileLogged limit source).value with
    | ok filter =>
      rw [result] at concludes
      obtain ⟨level, code⟩ := concludes
      exact ⟨List.filter_cons_of_neg (by simp [level]), filter_code_eq_final marked code, level⟩
    | error error =>
      rw [result] at concludes
      obtain ⟨level, code, offset⟩ := concludes
      exact ⟨List.filter_cons_of_pos (decide_eq_true level), code, offset⟩

end Filter

end TagQuery
