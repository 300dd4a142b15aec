import TagQuery.Log.Event

namespace TagQuery

inductive Stream
  | out
  | err
deriving DecidableEq, Repr

structure OutputLine where
  stream : Stream
  text : String
deriving DecidableEq, Repr

namespace OutputLine

def out (text : String) : OutputLine := ⟨.out, text⟩

def err (text : String) : OutputLine := ⟨.err, text⟩

def written (stream : Stream) (lines : List OutputLine) : String :=
  String.join ((lines.filter fun line => line.stream = stream).map fun line => line.text ++ "\n")

end OutputLine

structure ConsoleLog where
  level : LogLevel
  structured : Bool
deriving DecidableEq, Repr

namespace ConsoleLog

/-- JSON lines and plain errors and warnings go to the error stream, all else to the output. -/
def line (log : ConsoleLog) (clock : Clock) (event : LogEvent) : OutputLine :=
  if log.structured then .err (event.toJson clock).text
  else
    match event.level with
    | .error | .warning => .err (event.text clock)
    | .info | .debug => .out (event.text clock)

def lines (log : ConsoleLog) (clock : Clock) (events : List LogEvent) : List OutputLine :=
  (events.filter fun event => event.level.passes log.level).map (log.line clock)

end ConsoleLog

end TagQuery
