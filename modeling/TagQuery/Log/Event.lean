import TagQuery.Json.Writer
import TagQuery.Limits
import TagQuery.Log.Code
import TagQuery.Log.Level
import TagQuery.Text.Slice

namespace TagQuery

/-- A detail of an event. The time that something took is known only when the event is written. -/
inductive Detail
  | text (text : String)
  | elapsed
deriving DecidableEq, Repr

structure Clock where
  timestamp : Option String := none
  elapsed : String
deriving DecidableEq, Repr

def Detail.show (clock : Clock) : Detail → String
  | .text shown => shown
  | .elapsed => clock.elapsed

structure LogEvent where
  level : LogLevel
  code : String
  message : String
  offset : Option Nat := none
  context : List (String × Detail) := []
deriving DecidableEq, Repr

namespace LogEvent

/-- A message that is too long is cut after the last character that fits, and marked. -/
def cutMessage (message : String) : String :=
  if message.utf8ByteSize ≤ Limits.logMessageBytes then message
  else String.ofList (Text.takeFitting Limits.logMessageBytes message.toList) ++ "..."

def make (level : LogLevel) (code message : String) : LogEvent :=
  { level, code, message := cutMessage message }

def error (code message : String) : LogEvent := make .error code message

def warning (code message : String) : LogEvent := make .warning code message

def info (code message : String) : LogEvent := make .info code message

def debug (code message : String) : LogEvent := make .debug code message

def withOffset (event : LogEvent) (offset : Nat) : LogEvent := { event with offset := some offset }

/-- Puts a detail into its place in the order of keys, instead of one that has the same key. -/
def insertDetail (key : String) (detail : Detail) :
    List (String × Detail) → List (String × Detail)
  | [] => [(key, detail)]
  | (other, otherDetail) :: rest =>
    if key < other then (key, detail) :: (other, otherDetail) :: rest
    else if key = other then (key, detail) :: rest
    else (other, otherDetail) :: insertDetail key detail rest

def withDetail (event : LogEvent) (key : String) (detail : Detail) : LogEvent :=
  { event with context := insertDetail key detail event.context }

def withText (event : LogEvent) (key text : String) : LogEvent := event.withDetail key (.text text)

def withNumber (event : LogEvent) (key : String) (number : Nat) : LogEvent :=
  event.withText key (toString number)

def entry (event : LogEvent) : CodeEntry := .ofCode event.code

def text (event : LogEvent) (clock : Clock) : String :=
  let offset := match event.offset with
    | some offset => " at offset " ++ toString offset
    | none => ""
  let details := event.context.map fun (key, detail) => key ++ "=" ++ detail.show clock
  let context := if details.isEmpty then "" else " (" ++ ", ".intercalate details ++ ")"
  "[" ++ event.level.label ++ "] " ++ event.code ++ " - " ++ event.message ++ offset ++ context

def toJson (event : LogEvent) (clock : Clock) : Json :=
  let optional (name : String) (value : Option Json) : List (String × Json) :=
    (value.map fun value => (name, value)).toList
  let context :=
    if event.context.isEmpty then none
    else some (.object (event.context.map fun (key, detail) => (key, .string (detail.show clock))))
  let failure :=
    if event.level = .error then
      some (.object
        [("description", .string event.entry.description),
          ("recommended_action", .string event.entry.action),
          ("recoverable", .bool event.entry.recoverable)])
    else none
  .object
    ([("category", .string event.entry.category), ("code", .string event.code)] ++
      optional "context" context ++ optional "error_metadata" failure ++
      [("level", .string event.level.label), ("message", .string event.message)] ++
      optional "offset" (event.offset.map fun offset => .integer offset) ++
      [("severity", .string event.entry.severity.label)] ++
      optional "timestamp" (clock.timestamp.map .string))

end LogEvent

structure Logged (α : Type) where
  value : α
  events : List LogEvent := []

namespace Logged

variable {α β : Type}

instance : Monad Logged where
  pure value := ⟨value, []⟩
  bind logged next :=
    let result := next logged.value
    ⟨result.value, logged.events ++ result.events⟩

def log (event : LogEvent) : Logged Unit := ⟨(), [event]⟩

def when (condition : Bool) (event : LogEvent) : Logged Unit := ⟨(), if condition then [event] else []⟩

@[simp] theorem value_pure (value : α) : (pure value : Logged α).value = value := rfl

@[simp] theorem events_pure (value : α) : (pure value : Logged α).events = [] := rfl

@[simp] theorem value_bind (logged : Logged α) (next : α → Logged β) :
    (logged >>= next).value = (next logged.value).value := rfl

@[simp] theorem events_bind (logged : Logged α) (next : α → Logged β) :
    (logged >>= next).events = logged.events ++ (next logged.value).events := rfl

end Logged

/-- A result that a crash can prevent. A crash keeps the events before it and undoes all that would follow. -/
abbrev Crashable (α : Type) := OptionT Logged α

namespace Crashable

variable {α β : Type}

theorem value_pure (value : α) : (pure value : Crashable α).run.value = some value := rfl

theorem value_lift (logged : Logged α) : (liftM logged : Crashable α).run.value = some logged.value := rfl

theorem value_bind (result : Crashable α) (next : α → Crashable β) :
    (result >>= next).run.value = result.run.value.bind fun value => (next value).run.value := by
  rw [OptionT.run_bind, Option.elimM, Logged.value_bind]
  cases result.run.value <;> rfl

theorem run_bind_crash {result : Crashable α} (crash : result.run.value = none) (next : α → Crashable β) :
    (result >>= next).run = ⟨none, result.run.events⟩ := by
  have events : (result >>= next).run.events = result.run.events := by
    rw [OptionT.run_bind, Option.elimM, Logged.events_bind, crash]
    exact List.append_nil _
  have value : (result >>= next).run.value = none := by rw [value_bind, crash, Option.bind_none]
  rw [← value, ← events]

end Crashable

end TagQuery
