import TagQuery.Log.Event

namespace TagQuery

structure MemoryLog where
  events : Array LogEvent := #[]

namespace MemoryLog

/-- Adds an event; in a full log the oldest ones make room. -/
def record (log : MemoryLog) (event : LogEvent) : MemoryLog :=
  if log.events.size < Limits.logBuffer then ⟨log.events.push event⟩
  else ⟨(log.events.extract (log.events.size - Limits.logBuffer + 1) log.events.size).push event⟩

def clear (_ : MemoryLog) : MemoryLog := {}

def count (log : MemoryLog) : Nat := log.events.size

def toList (log : MemoryLog) : List LogEvent := log.events.toList

def errors (log : MemoryLog) : List LogEvent := log.toList.filter fun event => event.level = .error

def warnings (log : MemoryLog) : List LogEvent :=
  log.toList.filter fun event => event.level = .warning

def withCode (log : MemoryLog) (code : String) : List LogEvent :=
  log.toList.filter fun event => event.code = code

def hasError (log : MemoryLog) (code : String) : Bool :=
  log.toList.any fun event => event.level = .error && event.code = code

def hasSuccess (log : MemoryLog) (code : String) : Bool :=
  log.toList.any fun event => event.level = .info && event.code = code

def recordAt (limit : LogLevel) (log : MemoryLog) (event : LogEvent) : MemoryLog :=
  if event.level.passes limit then log.record event else log

end MemoryLog

end TagQuery
