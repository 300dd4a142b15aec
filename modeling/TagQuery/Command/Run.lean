import TagQuery.Command.Arguments
import TagQuery.Log.Console
import TagQuery.Settings.Files

namespace TagQuery

namespace Json

def refusal : String := "not a value of the expected form"

end Json

inductive CommandError
  | config (error : ConfigError)
  | unreadable (path reason : String)
  | badJson (path : String)
  | filter (rendered : String)
  | batch (error : BatchError)
deriving DecidableEq, Repr

namespace CommandError

def message : CommandError → String
  | .config error => error.message
  | .unreadable path reason => "Failed to read '" ++ path ++ "': " ++ reason
  | .badJson path => "Invalid JSON in '" ++ path ++ "': " ++ Json.refusal
  | .filter rendered => rendered
  | .batch error => error.message

end CommandError

structure World where
  environment : Environment
  files : Files
  clock : Clock
  program : String

structure Finished where
  exitCode : Option Nat
  lines : List OutputLine

namespace Finished

def written (finished : Finished) (stream : Stream) : String :=
  OutputLine.written stream finished.lines

end Finished

namespace Command

def matchedCode : Nat := 0

def unmatchedCode : Nat := 1

def failureCode : Nat := 2

def helpText (program : String) : List String :=
  [ "Tag Filter v0.1.0",
    "Compile and evaluate tag-based dynamic group filters",
    "",
    "USAGE:",
    "    " ++ program ++ " [options] check <expr>",
    "    " ++ program ++ " [options] eval <expr> [key=value ...] [--tags file.json] [--strict]",
    "    " ++ program ++ " [options] explain <expr>",
    "    " ++ program ++
      " [options] members <expr> --entities file.json [--threads N] [--fail-fast] [--strict]",
    "",
    "OPTIONS:",
    "    --help              Show this help message",
    "    --config <file>     Load runtime configuration from a TOML file",
    "    --json-logs         Emit log events as JSON lines on stderr",
    "    --strict            Treat non-numeric tag values in comparisons as errors",
    "",
    "EXIT CODES:",
    "    0    valid expression / filter matched / batch completed",
    "    1    filter did not match",
    "    2    invalid expression, evaluation error or bad arguments",
    "",
    "EXAMPLES:",
    "    " ++ program ++
      " eval 'tag.user_type.contractor and tag.risk_score.gt.80' user_type=contractor risk_score=95",
    "    " ++ program ++ " members 'not tag.vip' --entities users.json --threads 4" ]

def loadPreferences (world : World) (options : GlobalOptions) : Except ConfigError Preferences := do
  let defaults := Preferences.ofEnvironment world.environment
  let preferences ←
    match options.config with
    | some path => defaults.ofFile world.files path
    | none => pure defaults
  preferences.check
  if options.jsonLogs then
    return { preferences with logging := { preferences.logging with structured := true } }
  else return preferences

def console (preferences : Preferences) : ConsoleLog :=
  ⟨preferences.logging.level, preferences.logging.structured⟩

def startEvent : LogEvent := .debug "I004" "Global logging system initialized"

inductive Ending
  | exit (code : Nat)
  | error (error : CommandError)
  | crash

structure Outcome where
  lines : List OutputLine
  ending : Ending

namespace Outcome

def after (lines : List OutputLine) (outcome : Outcome) : Outcome :=
  { outcome with lines := lines ++ outcome.lines }

end Outcome

def withFilter (world : World) (preferences : Preferences) (expr : String)
    (next : Filter → Outcome) : Outcome :=
  let compiled := Filter.compileLogged preferences.parser.nesting expr
  let log := (console preferences).lines world.clock compiled.events
  match compiled.value with
  | .error error => ⟨log, .error (.filter (error.render expr))⟩
  | .ok filter => (next filter).after log

def withJson {α : Type} (world : World) (path : String) (decode : String → Option α)
    (next : α → Outcome) : Outcome :=
  match world.files.text path with
  | .error reason => ⟨[], .error (.unreadable path reason)⟩
  | .ok text =>
    match decode text with
    | none => ⟨[], .error (.badJson path)⟩
    | some value => next value

def report (filter : Filter) : List String :=
  [ "OK: " ++ filter.canonical,
    s!"  Predicates: {filter.shape.counts.predicates}",
    s!"  Comparisons: {filter.shape.counts.comparisons}",
    s!"  Combinators: {filter.shape.counts.combinators}",
    s!"  Nesting depth: {filter.shape.nesting}",
    s!"  Nodes: {filter.shape.nodes}",
    "  Tag keys: " ++ ", ".intercalate filter.shape.keys ]

def policyOf (preferences : Preferences) (strict : Bool) : NonNumericPolicy :=
  if strict then .error else preferences.batch.policy

def evaluated (filter : Filter) (context : TagContext) (policy : NonNumericPolicy) : Outcome :=
  match filter.decide context policy with
  | .ok matched =>
    ⟨[.out (if matched then "true" else "false")],
      .exit (if matched then matchedCode else unmatchedCode)⟩
  | .error error =>
    ⟨[.err ("Error: [" ++ error.code ++ "] " ++ error.message)], .exit failureCode⟩

def batchLines (world : World) (report : BatchReport) : List OutputLine :=
  report.members.map OutputLine.out ++
    report.errors.map (fun (entity, error) =>
      OutputLine.err ("Error: " ++ entity ++ ": " ++ error.message)) ++
    [.err (report.summary world.clock)]

def listed (world : World) (preferences : Preferences) (group : DynamicGroup)
    (settings : BatchSettings) (store : EntityStore) : Outcome :=
  let batch := (Batch.runKnown group store.source settings).run
  let log := (console preferences).lines world.clock batch.events
  Outcome.after log <|
    match batch.value with
    | some (.completed report) =>
      ⟨batchLines world report, .exit (if report.errors.isEmpty then matchedCode else failureCode)⟩
    | some (.failed error) => ⟨[], .error (.batch error)⟩
    | none => ⟨[], .crash⟩

def execute (world : World) (preferences : Preferences) : Command → Outcome
  | .help => ⟨[], .exit matchedCode⟩
  | .check expr =>
    withFilter world preferences expr fun filter =>
      ⟨(report filter).map OutputLine.out, .exit matchedCode⟩
  | .explain expr =>
    withFilter world preferences expr fun filter =>
      ⟨[.out filter.expr.toJson.indentedText], .exit matchedCode⟩
  | .eval expr tags tagsFile strict =>
    withFilter world preferences expr fun filter =>
      let policy := policyOf preferences strict
      match tagsFile with
      | none => evaluated filter (.ofList tags) policy
      | some path =>
        withJson world path TagContext.ofJsonText? fun context =>
          evaluated filter (context.extend tags) policy
  | .members expr entitiesFile workers failFast strict =>
    withFilter world preferences expr fun filter =>
      withJson world entitiesFile EntityStore.ofJsonText? fun store =>
        let defaults := Preferences.batchSettings preferences.batch
        listed world preferences ⟨expr, filter⟩
          { defaults with
            workers := workers.getD defaults.workers
            failFast
            policy := policyOf preferences strict }
          store

def finishWith (lines : List OutputLine) (outcome : Outcome) : Finished :=
  match outcome.ending with
  | .exit code => ⟨some code, lines ++ outcome.lines⟩
  | .error error => ⟨some failureCode, lines ++ outcome.lines ++ [.err error.message]⟩
  | .crash => ⟨none, lines ++ outcome.lines⟩

/-- A whole run of the program for its arguments. A configuration that cannot be loaded is reported
    before there is a log. -/
def run (world : World) (arguments : List String) : Finished :=
  match ofArguments arguments with
  | .error error =>
    ⟨some failureCode,
      [.err ("Error: " ++ error.message),
        .err ("Run '" ++ world.program ++ " --help' for usage")]⟩
  | .ok (_, .help) => ⟨some matchedCode, (helpText world.program).map OutputLine.out⟩
  | .ok (options, command) =>
    match loadPreferences world options with
    | .error error =>
      ⟨some failureCode,
        [.err ("[ERROR] FALLBACK: [" ++ error.code ++ "] " ++ error.message), .err error.message]⟩
    | .ok preferences =>
      finishWith ((console preferences).lines world.clock [startEvent])
        (command.execute world preferences)

end Command

end TagQuery
