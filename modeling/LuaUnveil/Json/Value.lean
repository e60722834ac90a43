import LuaUnveil.Text.Numeral

/-!
# JSON values and their printed form

A report can be written as JSON, and an outcome can be read back from it.  A value keeps exactly
what one of the two needs.

* `Json`: the values.
* `Json.quote`: a text as a JSON string.
* `Json.pretty`: a value over several lines, indented by two spaces for each level.
-/

namespace LuaUnveil

/-- JSON values.  The fields of an object keep their order, and may repeat a name. -/
inductive Json where
  | null
  | bool (b : Bool)
  | natural (n : Nat)
  | string (t : Text)
  | array (items : List Json)
  | object (fields : List (Text × Json))
  /-- A well-formed value that is none of the above: a number that is not written as a natural, or
  a string or a field name in which an escape names one half of a surrogate pair alone. -/
  | other
  deriving Repr

namespace Json

/-! ## Strings -/

/-- A character inside a JSON string.  The quote, the backslash and the control characters below
the space are escaped; everything else stands for itself. -/
def quoteChar (c : Char) : Text :=
  if c = '"' then ['\\', '"']
  else if c = '\\' then ['\\', '\\']
  else if c = '\n' then ['\\', 'n']
  else if c = '\r' then ['\\', 'r']
  else if c = '\t' then ['\\', 't']
  else if c = '\x08' then ['\\', 'b']
  else if c = '\x0c' then ['\\', 'f']
  else if c.toNat < 0x20 then
    "\\u00".toList ++ [Nat.digitChar (c.toNat / 16), Nat.digitChar (c.toNat % 16)]
  else [c]

/-- A text as a JSON string. -/
def quote (t : Text) : Text := '"' :: t.flatMap quoteChar ++ ['"']

/-! ## The printed form -/

/-- A line break, and the indentation of a level. -/
def newLine (level : Nat) : Text := '\n' :: List.replicate (2 * level) ' '

mutual

/-- A value as it is printed at a level.  Empty arrays and objects stay on one line; the items of
others stand on a line each, one level further in. -/
def pretty (level : Nat) : Json → Text
  | null => "null".toList
  | bool b => if b then "true".toList else "false".toList
  | natural n => decimal n
  | string t => quote t
  | array [] => "[]".toList
  | array (item :: items) =>
    '[' :: newLine (level + 1) ++ pretty (level + 1) item ++ prettyItems (level + 1) items ++
      newLine level ++ [']']
  | object [] => "\x7b\x7d".toList
  | object ((name, value) :: fields) =>
    '\x7b' :: newLine (level + 1) ++ quote name ++ ": ".toList ++ pretty (level + 1) value ++
      prettyFields (level + 1) fields ++ newLine level ++ ['\x7d']
  | other => "null".toList

/-- The items behind the first one, each behind a comma and on its own line. -/
def prettyItems (level : Nat) : List Json → Text
  | [] => []
  | item :: items => ',' :: newLine level ++ pretty level item ++ prettyItems level items

/-- The fields behind the first one, each behind a comma and on its own line. -/
def prettyFields (level : Nat) : List (Text × Json) → Text
  | [] => []
  | (name, value) :: fields =>
    ',' :: newLine level ++ quote name ++ ": ".toList ++ pretty level value ++
      prettyFields level fields

end

end Json

end LuaUnveil
