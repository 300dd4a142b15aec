import TagQuery.Text.Slice

namespace TagQuery

/-- A place in a text: the byte offset from its start, and line and column counted from 1. In a text of less than
    `2 ^ 32 - 1` bytes the two counts fit 32 bits. -/
structure Position where
  offset : Nat
  line : Nat
  column : Nat
deriving DecidableEq, Repr

namespace Position

def start : Position := ⟨0, 1, 1⟩

def advance (place : Position) (c : Char) : Position :=
  if c = '\n' then ⟨place.offset + 1, place.line + 1, 1⟩
  else ⟨place.offset + c.utf8Size, place.line, place.column + 1⟩

def advanceOver (place : Position) (text : List Char) : Position := text.foldl advance place

def text (place : Position) : String := s!"{place.line}:{place.column}"

end Position

structure Span where
  start : Position
  stop : Position
deriving DecidableEq, Repr

namespace Span

def emptyAt (place : Position) : Span := ⟨place, place⟩

def byteLength (span : Span) : Nat := span.stop.offset - span.start.offset

def isEmpty (span : Span) : Bool := span.start.offset = span.stop.offset

/-- The smallest span over two others. Of two ends at one offset the first span's is kept. -/
def cover (first second : Span) : Span where
  start := if first.start.offset ≤ second.start.offset then first.start else second.start
  stop := if second.stop.offset ≤ first.stop.offset then first.stop else second.stop

/-- The characters of `source` that a span covers, none when it does not fit the text. -/
def slice (span : Span) (source : List Char) : List Char :=
  (Text.slice? source span.start.offset span.stop.offset).getD []

def text (span : Span) : String :=
  if span.start.line = span.stop.line then
    s!"{span.start.line}:{span.start.column}-{span.stop.column}"
  else span.start.text ++ "-" ++ span.stop.text

end Span

structure Spanned (α : Type) where
  value : α
  span : Span
deriving Repr, BEq, DecidableEq

namespace Spanned

variable {α : Type}

def offset (spanned : Spanned α) : Nat := spanned.span.start.offset

end Spanned

end TagQuery
