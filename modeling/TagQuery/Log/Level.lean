namespace TagQuery

inductive LogLevel
  | error
  | warning
  | info
  | debug
deriving DecidableEq, Repr

namespace LogLevel

def rank : LogLevel → Nat
  | .error => 0
  | .warning => 1
  | .info => 2
  | .debug => 3

def passes (level limit : LogLevel) : Bool := level.rank ≤ limit.rank

def label : LogLevel → String
  | .error => "ERROR"
  | .warning => "WARN"
  | .info => "INFO"
  | .debug => "DEBUG"

def generalCode : LogLevel → String
  | .error => "ERR001"
  | .warning => "W000"
  | .info => "I000"
  | .debug => "D000"

def setting : LogLevel → String
  | .error => "error"
  | .warning => "warning"
  | .info => "info"
  | .debug => "debug"

def ofSetting? : String → Option LogLevel
  | "error" => some .error
  | "warning" | "warn" => some .warning
  | "info" => some .info
  | "debug" => some .debug
  | _ => none

/-- Reads a level by name in any case, or by number. No letter outside of ASCII has a lower case that
    is part of a name. -/
def ofText? (text : String) : Option LogLevel :=
  match String.ofList (text.toList.map Char.toLower) with
  | "0" => some .error
  | "1" => some .warning
  | "2" => some .info
  | "3" => some .debug
  | name => ofSetting? name

end LogLevel

end TagQuery
