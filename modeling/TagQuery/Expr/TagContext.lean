import Std.Data.TreeMap

namespace TagQuery

structure TagContext where
  tags : Std.TreeMap String String := {}

namespace TagContext

def empty : TagContext := {}

def get? (context : TagContext) (key : String) : Option String := context.tags[key]?

def contains (context : TagContext) (key : String) : Bool := context.tags.contains key

def insert (context : TagContext) (key value : String) : TagContext :=
  ⟨context.tags.insert key value⟩

def extend (context : TagContext) (tags : List (String × String)) : TagContext :=
  tags.foldl (fun context tag => context.insert tag.1 tag.2) context

def ofList (tags : List (String × String)) : TagContext := empty.extend tags

def toList (context : TagContext) : List (String × String) := context.tags.toList

def size (context : TagContext) : Nat := context.tags.size

def isEmpty (context : TagContext) : Bool := context.tags.isEmpty

instance : BEq TagContext := ⟨fun first second => first.toList == second.toList⟩

instance : Inhabited TagContext := ⟨empty⟩

end TagContext

end TagQuery
