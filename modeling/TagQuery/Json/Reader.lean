import TagQuery.Json.Basic
import TagQuery.Json.Number
import TagQuery.Text.Reading

namespace TagQuery.Json

open Text (Reading hexDigit?)

def isBlank (c : Char) : Bool := c = ' ' || c = '\t' || c = '\n' || c = '\r'

def skip (text : List Char) : List Char := text.dropWhile isBlank

theorem skip_length (text : List Char) : (skip text).length ≤ text.length :=
  (List.dropWhile_sublist isBlank).length_le

def hexUnit? (a b c d : Char) : Option Nat := do
  let a ← hexDigit? a
  let b ← hexDigit? b
  let c ← hexDigit? c
  let d ← hexDigit? d
  return ((a * 16 + b) * 16 + c) * 16 + d

def lowSurrogate : (text : List Char) → Option (Reading Nat text)
  | '\\' :: 'u' :: a :: b :: c :: d :: rest => do
    let unit ← hexUnit? a b c d
    if 0xdc00 ≤ unit && unit ≤ 0xdfff then
      some ⟨unit - 0xdc00, rest, by simp only [List.length_cons]; omega⟩
    else none
  | _ => none

/-- What `\u` stands for in front of a text. Two escaped surrogates make one character, and one of
    them alone makes none. -/
def unicodeEscape : (text : List Char) → Option (Reading Char text)
  | a :: b :: c :: d :: rest => do
    let unit ← hexUnit? a b c d
    if 0xdc00 ≤ unit && unit ≤ 0xdfff then none
    else if 0xd800 ≤ unit && unit ≤ 0xdbff then
      (lowSurrogate rest).map fun low =>
        (low.map fun low => Char.ofNat (0x10000 + (unit - 0xd800) * 0x400 + low)).within
          (by simp only [List.length_cons]; omega)
    else some ⟨Char.ofNat unit, rest, by simp only [List.length_cons]; omega⟩
  | _ => none

def shortEscape? : Char → Option Char
  | '"' => some '"'
  | '\\' => some '\\'
  | '/' => some '/'
  | 'b' => some '\x08'
  | 'f' => some '\x0c'
  | 'n' => some '\n'
  | 'r' => some '\r'
  | 't' => some '\t'
  | _ => none

def escape : (text : List Char) → Option (Reading Char text)
  | [] => none
  | 'u' :: rest => (unicodeEscape rest).map (·.within (Nat.le_succ _))
  | c :: rest => (shortEscape? c).map fun char => ⟨char, rest, Nat.lt_succ_self _⟩

def stringBody (text : List Char) : Option (Reading (List Char) text) :=
  match text with
  | [] => none
  | '"' :: rest => some ⟨[], rest, Nat.lt_succ_self _⟩
  | '\\' :: rest => do
    let escaped ← escape rest
    have := escaped.shorter
    let body ← stringBody escaped.rest
    return (body.map (escaped.value :: ·)).within
      (by have := escaped.shorter; simp only [List.length_cons]; omega)
  | c :: rest =>
    if c.toNat < 0x20 then none
    else (stringBody rest).map fun body => (body.map (c :: ·)).within (Nat.le_succ _)
termination_by text.length
decreasing_by all_goals simp only [List.length_cons]; omega

def stringAt (text : List Char) : Option (Reading String text) :=
  match text with
  | '"' :: rest => (stringBody rest).map fun body => (body.map String.ofList).within (Nat.le_succ _)
  | _ => none

def exponent (text : List Char) : Option (Option Int × List Char) :=
  match text with
  | mark :: rest =>
    if mark = 'e' || mark = 'E' then
      let (negative, unsigned) := match rest with
        | '-' :: unsigned => (true, unsigned)
        | '+' :: unsigned => (false, unsigned)
        | unsigned => (false, unsigned)
      let digits := unsigned.takeWhile Char.isDigit
      let value : Int := Number.digitsValue digits
      if digits.isEmpty then none
      else some (some (if negative then -value else value), unsigned.dropWhile Char.isDigit)
    else some (none, text)
  | [] => some (none, [])

def places (text : List Char) : Option (List Char × List Char) :=
  match text with
  | '.' :: rest =>
    let digits := rest.takeWhile Char.isDigit
    if digits.isEmpty then none else some (digits, rest.dropWhile Char.isDigit)
  | _ => some ([], text)

def numeral (text : List Char) : Option (Numeral × List Char) := do
  let (negative, unsigned) := match text with
    | '-' :: unsigned => (true, unsigned)
    | unsigned => (false, unsigned)
  let whole := unsigned.takeWhile Char.isDigit
  if whole.isEmpty || (1 < whole.length && whole.head? = some '0') then none
  else
    let (fraction, rest) ← places (unsigned.dropWhile Char.isDigit)
    let (exponent, rest) ← exponent rest
    return (⟨negative, whole, fraction, exponent⟩, rest)

def numberAt (text : List Char) : Option (Reading Json text) := do
  let (numeral, rest) ← numeral text
  let value ← numeral.value?
  if shorter : rest.length < text.length then
    return ⟨match value with
      | .inl whole => .integer whole
      | .inr x => .float x, rest, shorter⟩
  else none

def wordAt (word : String) (value : Json) (text : List Char) : Option (Reading Json text) :=
  if word.toList.isPrefixOf text then
    let rest := text.drop word.toList.length
    if shorter : rest.length < text.length then some ⟨value, rest, shorter⟩ else none
  else none

def items {α : Type} (item : (text : List Char) → Option (Reading α text)) (closing : Char)
    (text : List Char) : Option (Reading (List α) text) := do
  let first ← item text
  have := first.shorter
  have skipped := skip_length first.rest
  match same : skip first.rest with
  | [] => none
  | c :: rest =>
    if c = closing then
      return ⟨[first.value], rest, by rw [same, List.length_cons] at skipped; omega⟩
    else if c = ',' then
      let others ← items item closing rest
      return (others.map (first.value :: ·)).within
        (by rw [same, List.length_cons] at skipped; omega)
    else none
termination_by text.length
decreasing_by rw [same, List.length_cons] at skipped; omega

def sequence {α : Type} (item : (text : List Char) → Option (Reading α text)) (closing : Char)
    (text : List Char) : Option (Reading (List α) text) :=
  match same : skip text with
  | [] => none
  | c :: rest =>
    if c = closing then
      some ⟨[], rest, by
        have := skip_length text; rw [same, List.length_cons] at this; omega⟩
    else items item closing text

def fieldAt {α : Type} (value : (text : List Char) → Option (Reading α text)) (text : List Char) :
    Option (Reading (String × α) text) := do
  let name ← stringAt (skip text)
  match same : skip name.rest with
  | ':' :: rest =>
    let reading ← value rest
    return (reading.map (name.value, ·)).within
      (by
        have := skip_length text
        have := name.shorter
        have skipped := skip_length name.rest
        rw [same, List.length_cons] at skipped
        omega)
  | _ => none

def valueAt (depth : Nat) (text : List Char) : Option (Reading Json text) :=
  let reading : Option (Reading Json (skip text)) :=
    match skip text with
    | [] => none
    | '"' :: rest => (stringAt ('"' :: rest)).map (·.map .string)
    | '[' :: rest =>
      match depth with
      | 0 => none
      | inner + 1 =>
        (sequence (valueAt inner) ']' rest).map fun items =>
          (items.map .array).within (Nat.le_succ _)
    | '{' :: rest =>
      match depth with
      | 0 => none
      | inner + 1 =>
        (sequence (fieldAt (valueAt inner)) '}' rest).map fun fields =>
          (fields.map .object).within (Nat.le_succ _)
    | 'n' :: rest => wordAt "null" .null ('n' :: rest)
    | 't' :: rest => wordAt "true" (.bool true) ('t' :: rest)
    | 'f' :: rest => wordAt "false" (.bool false) ('f' :: rest)
    | c :: rest => numberAt (c :: rest)
  reading.map (·.within (skip_length text))
termination_by structural depth

def ofText? (text : String) : Option Json :=
  match valueAt maxDepth text.toList with
  | some reading => if (skip reading.rest).isEmpty then some reading.value else none
  | none => none

end TagQuery.Json
