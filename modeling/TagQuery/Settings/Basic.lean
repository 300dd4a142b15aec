import TagQuery.Filter.Basic
import TagQuery.Group.Batch
import TagQuery.Log.Level
import TagQuery.Toml.Reader

namespace TagQuery

structure Environment where
  value? : String → Option String
  processors : Option Nat := none

structure ParserPreferences where
  nesting : Nat
deriving DecidableEq, Repr

structure LoggingPreferences where
  structured : Bool
  level : LogLevel
deriving DecidableEq, Repr

structure BatchPreferences where
  workers : Nat
  policy : NonNumericPolicy
deriving DecidableEq, Repr

structure Preferences where
  parser : ParserPreferences
  logging : LoggingPreferences
  batch : BatchPreferences
deriving DecidableEq, Repr

inductive ConfigError
  | unreadable (path reason : String)
  | malformed
  | invalidValue (key message : String)
deriving DecidableEq, Repr

namespace ConfigError

def code (_ : ConfigError) : String := "ERR004"

def refusal : String := "not a table of known settings"

def message : ConfigError → String
  | .unreadable path reason => "Failed to read configuration file '" ++ path ++ "': " ++ reason
  | .malformed => "Invalid configuration TOML: " ++ refusal
  | .invalidValue key message => "Invalid value for '" ++ key ++ "': " ++ message

end ConfigError

def boolOfText? : String → Option Bool
  | "true" => some true
  | "false" => some false
  | _ => none

/-- The preferences of an environment. A variable that is not understood counts as absent, and
    numbers are moved into their range. -/
def Preferences.ofEnvironment (environment : Environment) : Preferences where
  parser :=
    { nesting := Limits.clampNesting <|
        ((environment.value? "TAGF_MAX_NESTING_DEPTH").bind Number.unsigned64?).getD
          Limits.defaultNesting }
  logging :=
    { structured := ((environment.value? "TAGF_LOG_STRUCTURED").bind boolOfText?).getD false
      level := ((environment.value? "TAGF_LOG_LEVEL").bind LogLevel.ofText?).getD .warning }
  batch :=
    { workers := Limits.clampWorkers <|
        ((environment.value? "TAGF_BATCH_THREADS").bind Number.unsigned64?).getD
          (environment.processors.getD Limits.fallbackWorkers)
      policy :=
        ((environment.value? "TAGF_NON_NUMERIC_POLICY").bind NonNumericPolicy.ofText?).getD
          .noMatch }

namespace Toml

def asNatural? : Toml → Option Nat
  | .integer value => if 0 ≤ value then some value.toNat else none
  | _ => none

def asBool? : Toml → Option Bool
  | .bool value => some value
  | _ => none

def asSection? : Toml → Option (List (String × Toml))
  | .table fields => some fields
  | .moment => some []
  | _ => none

def asChoice? : Toml → Option String
  | .string name => some name
  | .table [(name, .table [])] => some name
  | .table [(name, .array [])] => some name
  | _ => none

def fieldOr? {α : Type} (decode : Toml → Option α) (fields : List (String × Toml)) (name : String)
    (default : α) : Option α :=
  match find? name fields with
  | none => some default
  | some value => decode value

end Toml

namespace Preferences

/-- The preferences of a configuration file. Fields that are absent have their defaults, and fields
    of other names do not matter. -/
def ofToml? (defaults : Preferences) (document : List (String × Toml)) : Option Preferences := do
  let parser ← Toml.fieldOr? Toml.asSection? document "parser" []
  let logging ← Toml.fieldOr? Toml.asSection? document "logging" []
  let batch ← Toml.fieldOr? Toml.asSection? document "batch" []
  let nesting ←
    Toml.fieldOr? Toml.asNatural? parser "max_nesting_depth" defaults.parser.nesting
  let structured ←
    Toml.fieldOr? Toml.asBool? logging "use_structured_logging" defaults.logging.structured
  let level ←
    Toml.fieldOr? (fun value => value.asChoice?.bind LogLevel.ofSetting?) logging "min_log_level"
      defaults.logging.level
  let workers ← Toml.fieldOr? Toml.asNatural? batch "max_threads" defaults.batch.workers
  let policy ←
    Toml.fieldOr? (fun value => value.asChoice?.bind NonNumericPolicy.ofSetting?) batch
      "non_numeric_policy" defaults.batch.policy
  return ⟨⟨nesting⟩, ⟨structured, level⟩, ⟨workers, policy⟩⟩

def check (preferences : Preferences) : Except ConfigError Unit :=
  if preferences.parser.nesting = 0 || Limits.hardNesting < preferences.parser.nesting then
    .error (.invalidValue "parser.max_nesting_depth"
      s!"must be between 1 and {Limits.hardNesting}")
  else if preferences.batch.workers = 0 || Limits.workers < preferences.batch.workers then
    .error (.invalidValue "batch.max_threads" s!"must be between 1 and {Limits.workers}")
  else .ok ()

def ofText (defaults : Preferences) (text : String) : Except ConfigError Preferences := do
  match (Toml.ofText? text).bind (ofToml? defaults) with
  | none => .error .malformed
  | some preferences =>
    preferences.check
    return preferences

def batchSettings (preferences : BatchPreferences) : BatchSettings where
  workers := Limits.clampWorkers preferences.workers
  failFast := false
  entities := Limits.batchEntities
  policy := preferences.policy

def loggingSummary (preferences : LoggingPreferences) : String :=
  s!"Logging Configuration:\n- Max message length: {Limits.logMessageBytes}\n" ++
    s!"- Memory buffer size: {Limits.logBuffer}\n" ++
    s!"- Min log level: {preferences.level.label}\n" ++
    s!"- Structured logging: {preferences.structured}"

def loggingDiagnostics (initialized : Bool) (preferences : LoggingPreferences) : String :=
  s!"=== Logging System Diagnostics ===\nInitialized: {initialized}\n\n" ++
    loggingSummary preferences

end Preferences

end TagQuery
