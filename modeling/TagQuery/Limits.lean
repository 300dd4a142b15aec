namespace TagQuery.Limits

def wordBytes : Nat := 255

def tokens : Nat := 8192

def defaultNesting : Nat := 64

def hardNesting : Nat := 1024

/-- Expressions with more characters than this are reported as long. -/
def recommendedLength : Nat := 2047

def workers : Nat := 8

def fallbackWorkers : Nat := 4

def batchEntities : Nat := 1000000

def logMessageBytes : Nat := 10000

def logBuffer : Nat := 10000

def clampNesting (requested : Nat) : Nat := max 1 (min requested hardNesting)

def clampWorkers (requested : Nat) : Nat := max 1 (min requested workers)

def origin : String := "Generated from config/development.toml"

end TagQuery.Limits
