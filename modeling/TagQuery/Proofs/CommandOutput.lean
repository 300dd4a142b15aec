import TagQuery.Command.Run
import TagQuery.Proofs.CompilationTrace

namespace TagQuery

def unlines (lines : List String) : String := String.join (lines.map (· ++ "\n"))

theorem unlines_append (first second : List String) : unlines (first ++ second) = unlines first ++ unlines second := by
  rw [unlines, List.map_append, String.join_append, unlines, unlines]

theorem unlines_append_eq_right {first second : List String} :
    unlines (first ++ second) = unlines second ↔ first = [] := by
  refine ⟨fun same => ?_, fun none => by rw [none, List.nil_append]⟩
  rw [unlines_append, ← String.toList_inj, String.toList_append, List.append_left_eq_self] at same
  cases first with
  | nil => rfl
  | cons line first => simp [unlines] at same

namespace OutputLine

def outputs (lines : List OutputLine) : List String := (lines.filter fun line => line.stream = .out).map (·.text)

theorem written_out (lines : List OutputLine) : written .out lines = unlines (outputs lines) := by
  rw [written, unlines, outputs, List.map_map]
  rfl

theorem outputs_append (first second : List OutputLine) :
    outputs (first ++ second) = outputs first ++ outputs second := by
  rw [outputs, List.filter_append, List.map_append, outputs, outputs]

theorem outputs_map_out (texts : List String) : outputs (texts.map out) = texts := by
  induction texts with
  | nil => rfl
  | cons text texts ih => exact congrArg (text :: ·) ih

theorem outputs_eq_nil {lines : List OutputLine} (all : ∀ line ∈ lines, line.stream = .err) : outputs lines = [] := by
  refine List.map_eq_nil_iff.mpr (List.filter_eq_nil_iff.mpr fun line member => ?_)
  rw [all line member]
  decide

end OutputLine

namespace ConsoleLog

def shows (log : ConsoleLog) (event : LogEvent) : Bool :=
  !log.structured && (event.level = .info || event.level = .debug) && event.level.passes log.level

def outputs (log : ConsoleLog) (clock : Clock) (events : List LogEvent) : List String :=
  (events.filter log.shows).map fun event => event.text clock

def Quiet (log : ConsoleLog) : Prop := log.structured = true ∨ log.level = .error ∨ log.level = .warning

variable {log : ConsoleLog} {clock : Clock} {events : List LogEvent} {event : LogEvent}

theorem outputs_append (first second : List LogEvent) :
    log.outputs clock (first ++ second) = log.outputs clock first ++ log.outputs clock second := by
  rw [outputs, List.filter_append, List.map_append, outputs, outputs]

theorem lines_append (first second : List LogEvent) :
    log.lines clock (first ++ second) = log.lines clock first ++ log.lines clock second := by
  rw [lines, List.filter_append, List.map_append, lines, lines]

theorem outputs_lines_singleton (event : LogEvent) :
    OutputLine.outputs (log.lines clock [event]) = log.outputs clock [event] := by
  obtain ⟨limit, structured⟩ := log
  cases passes : event.level.passes limit with
  | false => simp [lines, outputs, shows, passes, OutputLine.outputs]
  | true =>
    cases structured with
    | true => simp [lines, line, outputs, shows, passes, OutputLine.outputs, OutputLine.err]
    | false =>
      cases level : event.level <;> rw [level] at passes <;>
        simp [lines, line, outputs, shows, level, passes, OutputLine.outputs, OutputLine.err, OutputLine.out]

theorem outputs_lines (events : List LogEvent) :
    OutputLine.outputs (log.lines clock events) = log.outputs clock events := by
  induction events with
  | nil => rfl
  | cons event events ih =>
    rw [← List.singleton_append, lines_append, OutputLine.outputs_append, outputs_lines_singleton, ih, outputs_append]

theorem Quiet.outputs_eq_nil (quiet : log.Quiet) (events : List LogEvent) : log.outputs clock events = [] := by
  refine List.map_eq_nil_iff.mpr (List.filter_eq_nil_iff.mpr fun event _ => ?_)
  obtain ⟨limit, structured⟩ := log
  obtain rfl | rfl | rfl := quiet
  · simp [shows]
  · cases level : event.level <;> simp [shows, level, LogLevel.passes, LogLevel.rank]
  · cases level : event.level <;> simp [shows, level, LogLevel.passes, LogLevel.rank]

theorem outputs_ne_nil (loud : ¬ log.Quiet) (member : event ∈ events) (level : event.level = .info) :
    log.outputs clock events ≠ [] := by
  have shown : log.shows event = true := by
    obtain ⟨limit, structured⟩ := log
    simp only [Quiet, not_or] at loud
    obtain ⟨plain, notError, notWarning⟩ := loud
    cases limit <;> simp_all [shows, LogLevel.passes, LogLevel.rank]
  exact List.ne_nil_of_mem (List.mem_map_of_mem (List.mem_filter.mpr ⟨member, shown⟩))

end ConsoleLog

def BatchOutcome.report? : BatchOutcome → Option BatchReport
  | .completed report => some report
  | .failed _ => none

namespace Command

section Results

variable (world : World) (preferences : Preferences)

def resultOf (expr : String) (next : Filter → Logged (Option (List String))) : Logged (Option (List String)) := do
  match ← Filter.compileLogged preferences.parser.nesting expr with
  | .error _ => return none
  | .ok filter => next filter

def valueIn? {α : Type} (path : String) (decode : String → Option α) : Option α :=
  (world.files.text path).toOption.bind decode

def tagsOf? (tags : List (String × String)) : Option String → Option TagContext
  | none => some (.ofList tags)
  | some path => (valueIn? world path TagContext.ofJsonText?).map (·.extend tags)

def settingsOf (workers : Option Nat) (failFast strict : Bool) : BatchSettings :=
  let defaults := Preferences.batchSettings preferences.batch
  { defaults with workers := workers.getD defaults.workers, failFast, policy := policyOf preferences strict }

/-- The lines that a command is asked for, unless it fails, and the events on the way to them. -/
def result : Command → Logged (Option (List String))
  | .help => return none
  | .check expr => resultOf preferences expr fun filter => return some (report filter)
  | .explain expr => resultOf preferences expr fun filter => return some [filter.expr.toJson.indentedText]
  | .eval expr tags tagsFile strict =>
    resultOf preferences expr fun filter => return do
      let matched ← (filter.decide (← tagsOf? world tags tagsFile) (policyOf preferences strict)).toOption
      return [if matched then "true" else "false"]
  | .members expr entitiesFile workers failFast strict =>
    resultOf preferences expr fun filter =>
      match valueIn? world entitiesFile EntityStore.ofJsonText? with
      | none => return none
      | some store => do
        let batch ← (Batch.runKnown ⟨expr, filter⟩ store.source (settingsOf preferences workers failFast strict)).run
        return (batch.bind (·.report?)).map (·.members)

end Results

def Outcome.Shows (log : ConsoleLog) (clock : Clock) (outcome : Outcome) (result : Logged (Option (List String))) :
    Prop :=
  OutputLine.outputs outcome.lines = log.outputs clock result.events ++ result.value.getD []

theorem Outcome.Shows.after {log : ConsoleLog} {clock : Clock} {outcome : Outcome}
    {result : Logged (Option (List String))} (shows : outcome.Shows log clock result) (events : List LogEvent) :
    (outcome.after (log.lines clock events)).Shows log clock ⟨result.value, events ++ result.events⟩ := by
  unfold Shows Outcome.after
  rw [OutputLine.outputs_append, ConsoleLog.outputs_lines, shows, ConsoleLog.outputs_append, List.append_assoc]

variable {world : World} {preferences : Preferences}

theorem shows_withFilter {expr : String} {next : Filter → Outcome} {result : Filter → Logged (Option (List String))}
    (shows : ∀ filter, (next filter).Shows (console preferences) world.clock (result filter)) :
    (withFilter world preferences expr next).Shows (console preferences) world.clock
      (resultOf preferences expr result) := by
  unfold withFilter resultOf
  cases compiled : (Filter.compileLogged preferences.parser.nesting expr).value with
  | error error =>
    simp only [Outcome.Shows, ConsoleLog.outputs_lines, Logged.value_bind, Logged.events_bind, compiled]
    simp
  | ok filter =>
    have whole := (shows filter).after (Filter.compileLogged preferences.parser.nesting expr).events
    simpa only [Outcome.Shows, Logged.value_bind, Logged.events_bind, compiled] using whole

theorem withJson_cases {α : Type} (world : World) (path : String) (decode : String → Option α) (next : α → Outcome) :
    (∃ value, valueIn? world path decode = some value ∧ withJson world path decode next = next value) ∨
      valueIn? world path decode = none ∧ ∃ error, withJson world path decode next = ⟨[], .error error⟩ := by
  unfold valueIn? withJson
  cases world.files.text path with
  | error reason => exact .inr ⟨rfl, _, rfl⟩
  | ok text =>
    dsimp only [Except.toOption, Option.bind_some]
    cases decode text with
    | none => exact .inr ⟨rfl, _, rfl⟩
    | some value => exact .inl ⟨value, rfl, rfl⟩

theorem shows_evaluated (filter : Filter) (context : TagContext) (policy : NonNumericPolicy) :
    (evaluated filter context policy).Shows (console preferences) world.clock
      (pure do
        let matched ← (filter.decide context policy).toOption
        return [if matched then "true" else "false"]) := by
  unfold evaluated
  cases filter.decide context policy <;> rfl

theorem outputs_batchLines (report : BatchReport) : OutputLine.outputs (batchLines world report) = report.members := by
  rw [batchLines, List.append_assoc, OutputLine.outputs_append, OutputLine.outputs_map_out]
  refine (congrArg (report.members ++ ·) (OutputLine.outputs_eq_nil ?_)).trans (List.append_nil _)
  exact List.forall_mem_append.mpr ⟨List.forall_mem_map.mpr fun _ _ => rfl, List.forall_mem_singleton.mpr rfl⟩

theorem shows_listed (group : DynamicGroup) (settings : BatchSettings) (store : EntityStore) :
    (listed world preferences group settings store).Shows (console preferences) world.clock (do
      return ((← (Batch.runKnown group store.source settings).run).bind (·.report?)).map (·.members)) := by
  unfold listed
  generalize (Batch.runKnown group store.source settings).run = batch
  obtain ⟨value, events⟩ := batch
  refine @Outcome.Shows.after (console preferences) world.clock _ ⟨(value.bind (·.report?)).map (·.members), []⟩ ?_ events
  cases value with
  | none => rfl
  | some ended =>
    cases ended with
    | completed report => exact outputs_batchLines report
    | failed error => rfl

theorem shows_execute (command : Command) :
    (command.execute world preferences).Shows (console preferences) world.clock
      (command.result world preferences) := by
  cases command with
  | help => rfl
  | check expr => exact shows_withFilter fun filter => OutputLine.outputs_map_out _
  | explain expr => exact shows_withFilter fun filter => rfl
  | eval expr tags tagsFile strict =>
    refine shows_withFilter fun filter => ?_
    cases tagsFile with
    | none => exact shows_evaluated filter _ _
    | some path =>
      obtain ⟨context, read, goesOn⟩ | ⟨unread, error, stops⟩ := withJson_cases world path
        TagContext.ofJsonText? fun context => evaluated filter (context.extend tags) (policyOf preferences strict)
      · simp only [tagsOf?, read, goesOn]
        exact shows_evaluated filter _ _
      · simp only [tagsOf?, unread, stops]
        rfl
  | members expr entitiesFile workers failFast strict =>
    refine shows_withFilter fun filter => ?_
    obtain ⟨store, read, goesOn⟩ | ⟨unread, error, stops⟩ := withJson_cases world entitiesFile
      EntityStore.ofJsonText? (listed world preferences ⟨expr, filter⟩ (settingsOf preferences workers failFast strict))
    · simp only [read]
      refine Eq.trans (congrArg (fun outcome => OutputLine.outputs outcome.lines) goesOn) ?_
      exact shows_listed _ _ store
    · simp only [unread]
      exact congrArg (fun outcome => OutputLine.outputs outcome.lines) stops

theorem outputs_finishWith (lines : List OutputLine) (outcome : Outcome) :
    OutputLine.outputs (finishWith lines outcome).lines =
      OutputLine.outputs lines ++ OutputLine.outputs outcome.lines := by
  unfold finishWith
  cases outcome.ending with
  | exit code => exact OutputLine.outputs_append _ _
  | error error =>
    rw [OutputLine.outputs_append, OutputLine.outputs_append]
    exact List.append_nil _
  | crash => exact OutputLine.outputs_append _ _

theorem info_of_resultOf {expr : String} {next : Filter → Logged (Option (List String))} {answer : List String}
    (comes : (resultOf preferences expr next).value = some answer) :
    ∃ event ∈ (resultOf preferences expr next).events, event.level = .info := by
  obtain ⟨stages, progress, final, events, -, -, -, concludes⟩ :=
    Filter.compileLogged_events preferences.parser.nesting expr
  unfold resultOf at comes ⊢
  rw [Logged.value_bind] at comes
  cases compiled : (Filter.compileLogged preferences.parser.nesting expr).value with
  | error error =>
    rw [compiled] at comes
    cases comes
  | ok filter =>
    rw [compiled] at concludes
    refine ⟨final, ?_, concludes.1⟩
    rw [Logged.events_bind, events]
    simp

theorem info_of_result {command : Command} {answer : List String}
    (comes : (command.result world preferences).value = some answer) :
    ∃ event ∈ (command.result world preferences).events, event.level = .info := by
  cases command with
  | help => cases comes
  | _ => exact info_of_resultOf comes

/-- The output is what the log shows of a command, and then its result. That stands alone if the log is structured or
    has only errors and warnings, and else it does not. -/
theorem output_is_log_then_result (world : World) (arguments : List String) (options : GlobalOptions)
    (command : Command) (preferences : Preferences) (read : ofArguments arguments = .ok (options, command))
    (asked : command ≠ .help) (loaded : loadPreferences world options = .ok preferences) :
    let log := console preferences
    let result := command.result world preferences
    let shown := log.outputs world.clock (startEvent :: result.events)
    let output := (run world arguments).written .out
    output = unlines (shown ++ result.value.getD []) ∧ (log.Quiet → shown = []) ∧
      ∀ answer, result.value = some answer → (output = unlines answer ↔ log.Quiet) := by
  intro log result shown output
  have carried : run world arguments =
      finishWith (log.lines world.clock [startEvent]) (command.execute world preferences) := by
    cases command with
    | help => exact absurd rfl asked
    | _ =>
      unfold run
      rw [read]
      dsimp only
      rw [loaded]
  have whole : output = unlines (shown ++ result.value.getD []) := by
    have first : shown = log.outputs world.clock [startEvent] ++ log.outputs world.clock result.events :=
      ConsoleLog.outputs_append [startEvent] result.events
    show OutputLine.written .out (run world arguments).lines = _
    rw [OutputLine.written_out, carried, outputs_finishWith, ConsoleLog.outputs_lines, shows_execute, first,
      List.append_assoc]
  refine ⟨whole, fun quiet => quiet.outputs_eq_nil _, fun answer comes => ?_⟩
  rw [whole, comes, Option.getD_some, unlines_append_eq_right]
  refine ⟨fun none => ?_, fun quiet => quiet.outputs_eq_nil _⟩
  -- the event of the compilation is a line that does not belong to the result
  by_contra loud
  obtain ⟨event, member, level⟩ := info_of_result comes
  exact ConsoleLog.outputs_ne_nil loud (List.mem_cons_of_mem _ member) level none

/-- A plain log of level `info` is mixed with the result. -/
theorem eval_output_has_log :
    let world : World :=
      { environment.value? := fun name => if name = "TAGF_LOG_LEVEL" then some "info" else none
        files := fun _ => .failure "No such file or directory (os error 2)"
        clock.elapsed := "0"
        program := "tag_filter" }
    let command : Command := .eval "tag.a" [("a", "1")] none false
    ofArguments ["eval", "tag.a", "a=1"] = .ok ({}, command) ∧
      (loadPreferences world {}).map (fun preferences => (command.result world preferences).value) =
        .ok (some ["true"]) ∧
      (run world ["eval", "tag.a", "a=1"]).written .out ≠ unlines ["true"] := by
  intro world command
  refine ⟨rfl, by decide +kernel, fun alone => ?_⟩
  -- only how many lines there are and the last of them need be computed, not the text of the event
  let lines := (run world ["eval", "tag.a", "a=1"]).lines
  have last : (OutputLine.outputs lines).drop 1 = ["true"] := by decide +kernel
  have first : ((OutputLine.outputs lines).take 1).length = 1 := by decide +kernel
  rw [Finished.written, OutputLine.written_out, ← List.take_append_drop 1 (OutputLine.outputs lines), last,
    unlines_append_eq_right] at alone
  rw [alone] at first
  cases first

theorem output_is_log_then_result_structured :
    let world : World :=
      { environment.value? := fun name => if name = "TAGF_LOG_LEVEL" then some "debug" else none
        files := fun _ =>
          .bytes "\x7b\"x\": \x7b\"a\": \"1\"\x7d, \"y\": \x7b\x7d, \"b\": \x7b\"a\": \"2\"\x7d\x7d".toUTF8
        clock.elapsed := "0"
        program := "tag_filter" }
    (run world ["members", "tag.a", "--entities", "e.json", "--json-logs"]).written .out = unlines ["b", "x"] := by
  intro world
  let command : Command := .members "tag.a" "e.json" none false false
  let preferences : Preferences := ⟨⟨64⟩, ⟨true, .debug⟩, ⟨4, .noMatch⟩⟩
  have comes : (command.result world preferences).value = some ["b", "x"] := by decide +kernel
  obtain ⟨-, -, alone⟩ := output_is_log_then_result world ["members", "tag.a", "--entities", "e.json", "--json-logs"]
    ⟨none, true⟩ command preferences rfl nofun rfl
  exact (alone _ comes).mpr (.inl rfl)

end Command

end TagQuery
