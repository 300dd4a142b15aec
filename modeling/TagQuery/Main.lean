import Std.Time
import TagQuery.Command.Run

namespace TagQuery

namespace Terminal

def variableNames : List String :=
  ["TAGF_MAX_NESTING_DEPTH", "TAGF_LOG_STRUCTURED", "TAGF_LOG_LEVEL", "TAGF_BATCH_THREADS",
    "TAGF_NON_NUMERIC_POLICY"]

def readEnvironment : IO Environment := do
  let known ← variableNames.filterMapM fun name => return (← IO.getEnv name).map fun value => (name, value)
  return { value? := fun name => known.lookup name }

def failureText : IO.Error → String
  | .noFileOrDirectory .. => "No such file or directory (os error 2)"
  | .permissionDenied .. => "Permission denied (os error 13)"
  | error => toString error

def readFile (path : String) : IO FileContent := do
  try
    return .bytes (← IO.FS.readBinFile path)
  catch error => return .failure (failureText error)

def namedFiles (arguments : List String) : List String :=
  match Command.ofArguments arguments with
  | .error _ => []
  | .ok (options, command) =>
    let file := match command with
      | .eval _ _ tagsFile _ => tagsFile
      | .members _ entitiesFile _ _ _ => some entitiesFile
      | _ => none
    options.config.toList ++ file.toList

def readFiles (paths : List String) : IO Files := do
  let contents ← paths.mapM fun path => return (path, ← readFile path)
  return fun path => (contents.lookup path).getD (.failure "No such file or directory (os error 2)")

def timestamp : IO String := do
  let now := Std.Time.DateTime.ofTimestamp (← Std.Time.Timestamp.now) Std.Time.TimeZone.ZoneRules.UTC
  let nanoseconds := now.nanosecond.val
  let fraction :=
    if nanoseconds = 0 then ""
    else if nanoseconds % 1000000 = 0 then ".SSS"
    else if nanoseconds % 1000 = 0 then ".SSSSSS"
    else ".SSSSSSSSS"
  return now.format ("uuuu-MM-dd'T'HH:mm:ss" ++ fraction ++ "xxx")

def milliseconds (nanoseconds : Nat) : String :=
  let hundredths := nanoseconds / 10000
  let places := toString (hundredths % 100)
  toString (hundredths / 100) ++ "." ++ (if places.length = 1 then "0" ++ places else places)

/-- Measures a run by trying it out. -/
def measured (world : World) (arguments : List String) : IO Clock := do
  let began ← IO.monoNanosNow
  let finished := Command.run world arguments
  let length := (finished.written .out).length + (finished.written .err).length
  let ended ← if length = 0 then pure began else IO.monoNanosNow
  return ⟨← timestamp, milliseconds (ended - began)⟩

def write (line : OutputLine) : IO Unit :=
  match line.stream with
  | .out => IO.println line.text
  | .err => IO.eprintln line.text

def crashCode : Nat := 101

def run (arguments : List String) : IO UInt32 := do
  let world : World :=
    { environment := ← readEnvironment
      files := ← readFiles (namedFiles arguments)
      clock := { elapsed := "" }
      program := "tag_filter" }
  let finished := Command.run { world with clock := ← measured world arguments } arguments
  finished.lines.forM write
  return UInt32.ofNat (finished.exitCode.getD crashCode)

end Terminal

end TagQuery

def main (arguments : List String) : IO UInt32 := TagQuery.Terminal.run arguments
