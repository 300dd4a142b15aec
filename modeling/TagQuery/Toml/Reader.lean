import TagQuery.Toml.Scalar

namespace TagQuery.Toml

open Text (hexDigit?)

def maxDepth : Nat := 79

def isSpace (c : Char) : Bool := c = ' ' || c = '\t'

def isControl (c : Char) : Bool := (c.toNat < 0x20 && c ≠ '\t') || c.toNat = 0x7f

def skipSpaces (text : List Char) : List Char := text.dropWhile isSpace

def afterBreak? : List Char → Option (List Char)
  | '\n' :: rest => some rest
  | '\r' :: '\n' :: rest => some rest
  | _ => none

def skipComment (text : List Char) : List Char :=
  match skipSpaces text with
  | '#' :: rest => rest.dropWhile fun c => !isControl c
  | rest => rest

def skipLines (text : List Char) : List Char :=
  match afterBreak? (skipComment text) with
  | some rest => if rest.length < text.length then skipLines rest else rest
  | none => skipComment text
termination_by text.length

def scalarValue? (digits : List Char) : Option Char := do
  let code ← digits.foldlM (fun value digit => (hexDigit? digit).map (16 * value + ·)) 0
  if code.isValidChar then some (Char.ofNat code) else none

def escape? : List Char → Option (Char × List Char)
  | 'u' :: a :: b :: c :: d :: rest => do return (← scalarValue? [a, b, c, d], rest)
  | 'U' :: a :: b :: c :: d :: e :: f :: g :: h :: rest => do
    return (← scalarValue? [a, b, c, d, e, f, g, h], rest)
  | c :: rest =>
    match c with
    | 'b' => some ('\x08', rest)
    | 't' => some ('\t', rest)
    | 'n' => some ('\n', rest)
    | 'f' => some ('\x0c', rest)
    | 'r' => some ('\r', rest)
    | '"' => some ('"', rest)
    | '\\' => some ('\\', rest)
    | _ => none
  | [] => none

def lineString (text : List Char) : Option (List Char × List Char) :=
  match text with
  | [] => none
  | '"' :: rest => some ([], rest)
  | '\\' :: rest => do
    let (c, after) ← escape? rest
    if after.length ≤ rest.length then do
      let (body, after) ← lineString after
      return (c :: body, after)
    else none
  | c :: rest =>
    if isControl c then none
    else (lineString rest).map fun (body, after) => (c :: body, after)
termination_by text.length

def skipBlankLines (text : List Char) : List Char :=
  match afterBreak? (skipSpaces text) with
  | some rest => if rest.length < text.length then skipBlankLines rest else rest
  | none => skipSpaces text
termination_by text.length

/-- The rest of a string on several lines, with its three closing quotes. Up to two more quotes before
    those belong to the string. -/
def blockString (text : List Char) : Option (List Char × List Char) :=
  match text with
  | [] => none
  | '"' :: '"' :: '"' :: rest =>
    match rest with
    | '"' :: '"' :: after => some (['"', '"'], after)
    | '"' :: after => some (['"'], after)
    | after => some ([], after)
  | '\\' :: rest =>
    match afterBreak? (skipSpaces rest) with
    | some after =>
      if (skipBlankLines after).length ≤ rest.length then blockString (skipBlankLines after)
      else none
    | none => do
      let (c, after) ← escape? rest
      if after.length ≤ rest.length then do
        let (body, after) ← blockString after
        return (c :: body, after)
      else none
  | '\r' :: '\n' :: rest => (blockString rest).map fun (body, after) => ('\n' :: body, after)
  | c :: rest =>
    if isControl c && c ≠ '\n' then none
    else (blockString rest).map fun (body, after) => (c :: body, after)
termination_by text.length

def rawBlockString : List Char → Option (List Char × List Char)
  | [] => none
  | '\'' :: '\'' :: '\'' :: rest =>
    match rest with
    | '\'' :: '\'' :: after => some (['\'', '\''], after)
    | '\'' :: after => some (['\''], after)
    | after => some ([], after)
  | '\r' :: '\n' :: rest => (rawBlockString rest).map fun (body, after) => ('\n' :: body, after)
  | c :: rest =>
    if isControl c && c ≠ '\n' then none
    else (rawBlockString rest).map fun (body, after) => (c :: body, after)

def rawLineString (text : List Char) : Option (List Char × List Char) :=
  match text.dropWhile fun c => c ≠ '\'' && !isControl c with
  | '\'' :: rest => some (text.takeWhile fun c => c ≠ '\'' && !isControl c, rest)
  | _ => none

def string? (text : List Char) : Option (String × List Char) :=
  let body : Option (List Char × List Char) :=
    match text with
    | '"' :: '"' :: '"' :: rest => blockString ((afterBreak? rest).getD rest)
    | '\'' :: '\'' :: '\'' :: rest => rawBlockString ((afterBreak? rest).getD rest)
    | '"' :: rest => lineString rest
    | '\'' :: rest => rawLineString rest
    | _ => none
  body.map fun (body, rest) => (String.ofList body, rest)

def isBare (c : Char) : Bool := c.isAlphanum || c = '_' || c = '-'

def simpleKey? (text : List Char) : Option (String × List Char) :=
  let body : Option (List Char × List Char) :=
    match text with
    | '"' :: rest => lineString rest
    | '\'' :: rest => rawLineString rest
    | _ =>
      if (text.takeWhile isBare).isEmpty then none
      else some (text.takeWhile isBare, text.dropWhile isBare)
  body.map fun (body, rest) => (String.ofList body, rest)

def names? (text : List Char) : Option (List String × List Char) := do
  let (name, rest) ← simpleKey? (skipSpaces text)
  match skipSpaces rest with
  | '.' :: rest =>
    if rest.length < text.length then do
      let (names, rest) ← names? rest
      return (name :: names, rest)
    else none
  | rest => return ([name], rest)
termination_by text.length

def key? (text : List Char) : Option (List String × List Char) := do
  let (names, rest) ← names? text
  if names.length ≤ maxDepth then return (names, rest) else none

def isScalarChar (c : Char) : Bool :=
  c.isAlphanum || c = '_' || c = '-' || c = '+' || c = '.' || c = ':'

/-- A value without quotes and brackets. The one space that can stand inside is before the time of a
    date. -/
def bareValue? (text : List Char) : Option (Toml × List Char) := do
  let word := text.takeWhile isScalarChar
  let rest := text.dropWhile isScalarChar
  match rest with
  | ' ' :: after =>
    let longer := word ++ ' ' :: after.takeWhile isScalarChar
    if isMoment word && (after.head?.map Char.isDigit).getD false then
      return (← scalar? longer, after.dropWhile isScalarChar)
    else return (← scalar? word, rest)
  | _ => return (← scalar? word, rest)

def arrayItems (item : List Char → Option (Toml × List Char)) (text : List Char) :
    Option (List Toml × List Char) :=
  match skipLines text with
  | ']' :: rest => some ([], rest)
  | start => do
    let (first, rest) ← item start
    match skipLines rest with
    | ']' :: rest => return ([first], rest)
    | ',' :: rest =>
      if rest.length < text.length then do
        let (others, rest) ← arrayItems item rest
        return (first :: others, rest)
      else none
    | _ => none
termination_by text.length

def keyValue? (value : List Char → Option (Toml × List Char)) (text : List Char) :
    Option ((List String × Toml) × List Char) := do
  let (path, rest) ← key? text
  match rest with
  | '=' :: rest =>
    let (found, rest) ← value (skipSpaces rest)
    return ((path, found), rest)
  | _ => none

def defineKey (path : List String) (value : Toml) (fields : Fields) : Option Fields := do
  define path.dropLast (← path.getLast?) (.value value) fields

def inlineFields (value : List Char → Option (Toml × List Char)) (fields : Fields)
    (text : List Char) : Option (Fields × List Char) := do
  let ((path, found), rest) ← keyValue? value text
  let fields ← defineKey path found fields
  match skipSpaces rest with
  | '}' :: rest => return (fields, rest)
  | ',' :: rest => if rest.length < text.length then inlineFields value fields rest else none
  | _ => none
termination_by text.length

def value? (depth : Nat) (text : List Char) : Option (Toml × List Char) :=
  match text with
  | '[' :: rest =>
    match depth with
    | 0 => none
    | inner + 1 => (arrayItems (value? inner) rest).map fun (items, rest) => (.array items, rest)
  | '{' :: rest =>
    match depth with
    | 0 => none
    | inner + 1 =>
      match skipSpaces rest with
      | '}' :: rest => some (.table [], rest)
      | rest =>
        (inlineFields (value? inner) [] rest).map fun (fields, rest) =>
          (.table (fieldsToToml fields), rest)
  | '"' :: _ | '\'' :: _ => (string? text).map fun (body, rest) => (.string body, rest)
  | _ => bareValue? text
termination_by structural depth

structure Document where
  fields : Fields := []
  path : List String := []

def line? (document : Document) (text : List Char) : Option (Document × List Char) :=
  match skipSpaces text with
  | '[' :: '[' :: rest => do
    let (path, rest) ← key? rest
    match rest with
    | ']' :: ']' :: rest =>
      return (⟨← openElement path.dropLast (← path.getLast?) document.fields, path⟩, rest)
    | _ => none
  | '[' :: rest => do
    let (path, rest) ← key? rest
    match rest with
    | ']' :: rest =>
      return (⟨← openTable path.dropLast (← path.getLast?) document.fields, path⟩, rest)
    | _ => none
  | [] => some (document, [])
  | c :: rest =>
    if c = '#' || c = '\n' || c = '\r' then some (document, c :: rest)
    else do
      let ((path, value), rest) ← keyValue? (value? maxDepth) (c :: rest)
      let fields ← inSection document.path (defineKey path value) document.fields
      return ({ document with fields }, rest)

def lines (document : Document) (text : List Char) : Option Document := do
  let (document, rest) ← line? document text
  match skipComment rest with
  | [] => return document
  | rest =>
    let next ← afterBreak? rest
    if next.length < text.length then lines document next else none
termination_by text.length

def ofText? (text : String) : Option (List (String × Toml)) := do
  let body := match text.toList with
    | '\ufeff' :: body => body
    | body => body
  return fieldsToToml (← lines {} body).fields

end TagQuery.Toml
