import LuaUnveil.Toml.Quoted
import LuaUnveil.Toml.Table
import LuaUnveil.Toml.Word

/-!
# Reading TOML

A document is a sequence of lines: headers, keys with values, comments and blank lines.

* `Toml.key?`: a key of one or more names.
* `Toml.value?`: a value.
* `Toml.parse?`: a whole document.
-/

namespace LuaUnveil.Toml

/-! ## Space between things -/

/-- The text without the spaces and tabs at its front. -/
def skipBlanks (text : Text) : Text := text.dropWhile fun c => c == ' ' || c == '\t'

/-- The text behind a comment at its front, if there is one.  The line break stays. -/
def skipComment? : Text → Option Text
  | '#' :: text =>
    let rest := text.dropWhile isPlain
    if rest.isEmpty || (skipBreak? rest).isSome then some rest else none
  | text => some text

/-- The text behind the rest of a line that holds nothing but blanks and a comment. -/
def skipLine? (text : Text) : Option Text := do
  let rest ← skipComment? (skipBlanks text)
  if rest.isEmpty then some [] else skipBreak? rest

/-- The text behind blanks, comments and line breaks, of at most `n` lines. -/
def skipLines? : Nat → Text → Option Text
  | 0, text => some text
  | n + 1, text => do
    let rest ← skipComment? (skipBlanks text)
    match skipBreak? rest with
    | some rest => skipLines? n rest
    | none => some rest

/-! ## Keys -/

/-- The characters of a name without quotes. -/
def isNameChar (c : Char) : Bool := c.isAlphanum || c == '_' || c == '-'

/-- One name: without quotes, or as a string on one line. -/
def name? : Text → Option (Text × Text)
  | '"' :: '"' :: '"' :: _ => none
  | '\x27' :: '\x27' :: '\x27' :: _ => none
  | '"' :: text => quoted? ('"' :: text)
  | '\x27' :: text => quoted? ('\x27' :: text)
  | text =>
    match leading isNameChar text with
    | ([], _) => none
    | found => some found

/-- Names with dots between them, up to `n` of them, with blanks around each. -/
def names? : Nat → Text → Option (List Text × Text)
  | 0, _ => none
  | n + 1, text => do
    let (name, rest) ← name? (skipBlanks text)
    match skipBlanks rest with
    | '.' :: rest =>
      let (later, rest) ← names? n rest
      return (name :: later, rest)
    | rest => return ([name], rest)

/-- The largest number of names in a key. -/
def maxNames : Nat := 81

/-- A key of one or more names, and the text behind it and its blanks. -/
def key? (text : Text) : Option (List Text × Text) := names? maxNames text

/-! ## Values -/

/-- The items of an array behind its opening bracket, through the closing one.  Line breaks,
comments and a comma behind the last item are allowed. -/
def items? (value? : Text → Option (Toml × Text)) : Nat → Text → Option (List Toml × Text)
  | 0, _ => none
  | n + 1, text => do
    match ← skipLines? text.length text with
    | ']' :: rest => return ([], rest)
    | text =>
      let (item, rest) ← value? text
      match ← skipLines? rest.length rest with
      | ']' :: rest => return ([item], rest)
      | ',' :: rest =>
        let (later, rest) ← items? value? n rest
        return (item :: later, rest)
      | _ => none

/-- The fields of an inline table behind its opening brace, through the closing one, added to the
fields so far.  Line breaks and comments are allowed everywhere but within a key, and so is a comma
behind the last field. -/
def inlineFields? (value? : Text → Option (Toml × Text)) :
    Nat → Fields → Text → Option (Fields × Text)
  | 0, _, _ => none
  | n + 1, fields, text => do
    match ← skipLines? text.length text with
    | '\x7d' :: rest => return (fields, rest)
    | text =>
      let (key, rest) ← key? text
      let rest ← skip? ['='] (← skipLines? rest.length rest)
      let (value, rest) ← value? (← skipLines? rest.length rest)
      let fields ← insert? key value fields
      match ← skipLines? rest.length rest with
      | '\x7d' :: rest => return (fields, rest)
      | ',' :: rest => inlineFields? value? n fields rest
      | _ => none

/-- A value with arrays and inline tables nested up to a depth, and the text behind it. -/
def value? : Nat → Text → Option (Toml × Text)
  | _, '"' :: text => (quoted? ('"' :: text)).map fun (t, rest) => (string t, rest)
  | _, '\x27' :: text => (quoted? ('\x27' :: text)).map fun (t, rest) => (string t, rest)
  | 0, '[' :: _ => none
  | 0, '\x7b' :: _ => none
  | depth + 1, '[' :: text =>
    (items? (value? depth) (text.length + 1) text).map fun (found, rest) => (array found, rest)
  | depth + 1, '\x7b' :: text =>
    (inlineFields? (value? depth) (text.length + 1) [] text).map fun (found, rest) =>
      (table .inline found, rest)
  | _, text =>
    let (word, rest) := splitWord text
    (ofWord? word).map fun value => (value, rest)

/-- The deepest nesting of arrays and inline tables. -/
def maxDepth : Nat := 80

/-! ## Documents -/

/-- The document so far: all fields, and the path of the table that the last header opened. -/
structure Document where
  fields : Fields := []
  current : List Text := []

/-- A header behind its opening bracket or brackets, through the end of its line. -/
def header? (document : Document) (isItem : Bool) (text : Text) : Option (Document × Text) := do
  let (key, rest) ← key? text
  let rest ← skip? (if isItem then "]]".toList else "]".toList) rest
  let rest ← skipLine? rest
  let name ← key.getLast?
  let openField := if isItem then openItem? name else openTable? name
  let fields ← within? openField key.dropLast document.fields
  return ({ fields, current := key }, rest)

/-- A key with its value, through the end of the line. -/
def entry? (document : Document) (text : Text) : Option (Document × Text) := do
  let (key, rest) ← key? text
  let rest ← skip? ['='] rest
  let (value, rest) ← value? maxDepth (skipBlanks rest)
  let rest ← skipLine? rest
  let fields ← within? (insert? key value) document.current document.fields
  return ({ document with fields }, rest)

/-- One line of a document, or one entry over several lines. -/
def line? (document : Document) (text : Text) : Option (Document × Text) :=
  match skipBlanks text with
  | '[' :: '[' :: text => header? document true text
  | '[' :: text => header? document false text
  | text =>
    match skipLine? text with
    | some rest => some (document, rest)
    | none => entry? document text

/-- The lines of a document, up to `n` of them. -/
def lines? : Nat → Document → Text → Option Document
  | _, document, [] => some document
  | 0, _, _ => none
  | n + 1, document, text => do
    let (document, rest) ← line? document text
    lines? n document rest

/-- Read a document.  A byte order mark at its start is skipped. -/
def parse? (text : Text) : Option Fields :=
  let body := (skip? ['\uFEFF'] text).getD text
  (lines? (body.length + 1) {} body).map (·.fields)

end LuaUnveil.Toml
