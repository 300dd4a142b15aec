import TagQuery.Number.Literal

namespace TagQuery

structure GlobalOptions where
  config : Option String := none
  jsonLogs : Bool := false
deriving DecidableEq, Repr

inductive Command
  | help
  | check (expr : String)
  | eval (expr : String) (tags : List (String × String)) (tagsFile : Option String) (strict : Bool)
  | explain (expr : String)
  | members (expr entitiesFile : String) (workers : Option Nat) (failFast strict : Bool)
deriving DecidableEq, Repr

inductive UsageError
  | missingValue (option : String)
  | invalidThreadCount (value : String)
  | unknownOption (option : String)
  | missingCommand
  | missingExpression (command : String)
  | unexpectedArgument (argument : String)
  | invalidTag (argument : String)
  | missingEntities
  | unknownCommand (command : String)
deriving DecidableEq, Repr

namespace UsageError

def message : UsageError → String
  | .missingValue option => option ++ " requires a value"
  | .invalidThreadCount value => "Invalid thread count '" ++ value ++ "'"
  | .unknownOption option => "Unknown option '" ++ option ++ "'"
  | .missingCommand => "Missing command"
  | .missingExpression command => "'" ++ command ++ "' requires an expression"
  | .unexpectedArgument argument => "Unexpected argument '" ++ argument ++ "'; quote the expression"
  | .invalidTag argument => "Invalid tag '" ++ argument ++ "': expected key=value"
  | .missingEntities => "'members' requires --entities <file>"
  | .unknownCommand command => "Unknown command '" ++ command ++ "'"

end UsageError

structure Arguments where
  options : GlobalOptions := {}
  words : List String := []
  tagsFile : Option String := none
  entitiesFile : Option String := none
  workers : Option Nat := none
  strict : Bool := false
  failFast : Bool := false
deriving DecidableEq, Repr

namespace Arguments

def setFlag? (arguments : Arguments) : String → Option Arguments
  | "--json-logs" => some { arguments with options.jsonLogs := true }
  | "--strict" => some { arguments with strict := true }
  | "--fail-fast" => some { arguments with failFast := true }
  | _ => none

def takesValue (option : String) : Bool :=
  option = "--config" || option = "--tags" || option = "--entities" || option = "--threads"

def setValue (arguments : Arguments) (option value : String) : Except UsageError Arguments :=
  if option = "--config" then .ok { arguments with options.config := some value }
  else if option = "--tags" then .ok { arguments with tagsFile := some value }
  else if option = "--entities" then .ok { arguments with entitiesFile := some value }
  else
    match Number.unsigned64? value with
    | some count => .ok { arguments with workers := some (max count 1) }
    | none => .error (.invalidThreadCount value)

/-- Goes through the arguments in order. Asking for help ends the search, and what was found before it
    counts; a value is taken as it is, even if it looks like an option. -/
def sort (arguments : Arguments) : List String → Except UsageError (Arguments × Bool)
  | [] => .ok (arguments, false)
  | argument :: rest =>
    if argument = "--help" || argument = "-h" then .ok (arguments, true)
    else
      match arguments.setFlag? argument with
      | some arguments => arguments.sort rest
      | none =>
        if takesValue argument then
          match rest with
          | [] => .error (.missingValue argument)
          | value :: rest =>
            match arguments.setValue argument value with
            | .ok arguments => arguments.sort rest
            | .error error => .error error
        else if "--".toList.isPrefixOf argument.toList then .error (.unknownOption argument)
        else { arguments with words := arguments.words ++ [argument] }.sort rest

def tag (argument : String) : Except UsageError (String × String) :=
  let text := argument.toList
  match text.takeWhile (· ≠ '='), text.dropWhile (· ≠ '=') with
  | first :: key, _ :: value => .ok (String.ofList (first :: key), String.ofList value)
  | _, _ => .error (.invalidTag argument)

/-- The command that the words and options make. Words that are left over are refused by `check` and
    `explain`, are tags for `eval`, and do not matter to `members`. -/
def command (arguments : Arguments) : Except UsageError Command :=
  match arguments.words with
  | [] => .error .missingCommand
  | [name] => .error (.missingExpression name)
  | name :: expr :: rest =>
    match name, rest with
    | "check", [] => .ok (.check expr)
    | "explain", [] => .ok (.explain expr)
    | "check", argument :: _ | "explain", argument :: _ => .error (.unexpectedArgument argument)
    | "eval", pairs => do
      return .eval expr (← pairs.mapM tag) arguments.tagsFile arguments.strict
    | "members", _ =>
      match arguments.entitiesFile with
      | none => .error .missingEntities
      | some file => .ok (.members expr file arguments.workers arguments.failFast arguments.strict)
    | _, _ => .error (.unknownCommand name)

end Arguments

def Command.ofArguments (arguments : List String) :
    Except UsageError (GlobalOptions × Command) := do
  let (sorted, asksHelp) ← Arguments.sort {} arguments
  if asksHelp then return (sorted.options, .help)
  else return (sorted.options, ← sorted.command)

end TagQuery
