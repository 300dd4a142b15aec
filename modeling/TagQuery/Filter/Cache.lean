import Std.Data.TreeMap
import TagQuery.Filter.Trace

namespace TagQuery

structure SourceMap (α : Type) where
  entries : Std.TreeMap String α := {}

namespace SourceMap

variable {α : Type}

def get? (map : SourceMap α) (source : String) : Option α := map.entries[source]?

/-- The entry that is kept for a source: the one there is, or else a new one. -/
def settle (map : SourceMap α) (source : String) (entry : α) : α × SourceMap α :=
  match map.get? source with
  | some resident => (resident, map)
  | none => (entry, ⟨map.entries.insert source entry⟩)

def erase (map : SourceMap α) (source : String) : SourceMap α := ⟨map.entries.erase source⟩

def contains (map : SourceMap α) (source : String) : Bool := (map.get? source).isSome

def size (map : SourceMap α) : Nat := map.entries.size

def isEmpty (map : SourceMap α) : Bool := map.entries.isEmpty

end SourceMap

structure FilterCache where
  limit : Nat
  filters : SourceMap Filter := {}

namespace FilterCache

def ofLimit (limit : Nat) : FilterCache := { limit }

def get? (cache : FilterCache) (source : String) : Option Filter := cache.filters.get? source

def hitEvent (source : String) : LogEvent :=
  (LogEvent.debug "D000" "Filter cache hit").withNumber "length" source.utf8ByteSize

/-- The filter of a source, compiled unless it is there. A source that is no filter is not kept. -/
def getOrCompile (cache : FilterCache) (source : String) :
    Logged (Except FilterError Filter × FilterCache) := do
  match cache.get? source with
  | some filter =>
    Logged.log (hitEvent source)
    return (.ok filter, cache)
  | none =>
    match ← Filter.compileLogged cache.limit source with
    | .error error => return (.error error, cache)
    | .ok compiled =>
      let (resident, filters) := cache.filters.settle source compiled
      return (.ok resident, { cache with filters })

def invalidate (cache : FilterCache) (source : String) : Bool × FilterCache :=
  (cache.filters.contains source, { cache with filters := cache.filters.erase source })

def clear (cache : FilterCache) : FilterCache := ofLimit cache.limit

def size (cache : FilterCache) : Nat := cache.filters.size

def isEmpty (cache : FilterCache) : Bool := cache.filters.isEmpty

end FilterCache

end TagQuery
