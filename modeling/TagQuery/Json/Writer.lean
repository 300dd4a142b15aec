import TagQuery.Json.Basic
import TagQuery.Json.Number

namespace TagQuery.Json

def hexDigit (value : Nat) : Char := if value < 10 then Char.ofNat (48 + value) else Char.ofNat (87 + value)

def escaped (c : Char) : List Char :=
  match c with
  | '"' => ['\\', '"']
  | '\\' => ['\\', '\\']
  | '\x08' => ['\\', 'b']
  | '\x0c' => ['\\', 'f']
  | '\n' => ['\\', 'n']
  | '\r' => ['\\', 'r']
  | '\t' => ['\\', 't']
  | c =>
    if c.toNat < 0x20 then ['\\', 'u', '0', '0', hexDigit (c.toNat / 16), hexDigit (c.toNat % 16)]
    else [c]

def quoted (text : String) : String := String.ofList ('"' :: text.toList.flatMap escaped ++ ['"'])

inductive Layout
  | compact
  | indented (depth : Nat)

namespace Layout

def deeper : Layout → Layout
  | .compact => .compact
  | .indented depth => .indented (depth + 1)

def lineBreak : Layout → String
  | .compact => ""
  | .indented depth => "\n" ++ String.ofList (List.replicate (2 * depth) ' ')

def colon : Layout → String
  | .compact => ":"
  | .indented _ => ": "

end Layout

mutual

def write (layout : Layout) : Json → String
  | .null => "null"
  | .bool value => if value then "true" else "false"
  | .integer value => toString value
  | .float value => if Number.isFinite value then floatText value else "null"
  | .string text => quoted text
  | .array [] => "[]"
  | .array (first :: items) =>
    "[" ++ layout.deeper.lineBreak ++ first.write layout.deeper ++
      writeItems layout.deeper items ++ layout.lineBreak ++ "]"
  | .object [] => "\x7b\x7d"
  | .object ((name, value) :: fields) =>
    "\x7b" ++ layout.deeper.lineBreak ++ quoted name ++ layout.colon ++ value.write layout.deeper ++
      writeFields layout.deeper fields ++ layout.lineBreak ++ "\x7d"

def writeItems (layout : Layout) : List Json → String
  | [] => ""
  | item :: items => "," ++ layout.lineBreak ++ item.write layout ++ writeItems layout items

def writeFields (layout : Layout) : List (String × Json) → String
  | [] => ""
  | (name, value) :: fields =>
    "," ++ layout.lineBreak ++ quoted name ++ layout.colon ++ value.write layout ++
      writeFields layout fields

end

def text (json : Json) : String := json.write .compact

def indentedText (json : Json) : String := json.write (.indented 0)

end TagQuery.Json
