import LuaUnveil.Toml.Value

/-!
# Building up tables

A document fills its tables line by line: a key with a value goes into the table of the last
header, and a header opens a new table or an item of an array of tables.  No value is ever
replaced, and a table that is complete is not extended.

* `Toml.insert?`: put a value under a dotted key.
* `Toml.openTable?`, `Toml.openItem?`: a header in single or double brackets.
* `Toml.within?`: change the table that a header opened.
-/

namespace LuaUnveil.Toml

/-- Let a value stand under a name, in place of the value there or behind all others. -/
def setField (fields : Fields) (name : Text) (value : Toml) : Fields :=
  if (fields.lookup name).isSome then
    fields.map fun field => if field.1 == name then (name, value) else field
  else fields ++ [(name, value)]

/-! ## Dotted keys -/

/-- Put a value under a dotted key, given as the path before the last name and that name.
`takesValues` says whether the table at hand may take values itself: a table that only lies on the
way to another one, or is an item of an array of tables, may not, but tables below it may. -/
def insertBelow? (takesValues : Bool) (name : Text) (value : Toml) :
    List Text → Fields → Option Fields
  | [], fields =>
    if takesValues && (fields.lookup name).isNone then some (fields ++ [(name, value)]) else none
  | step :: path, fields =>
    match fields.lookup step with
    | none =>
      (insertBelow? true name value path []).map fun inner =>
        fields ++ [(step, .table .dotted inner)]
    | some (.table .dotted inner) =>
      (insertBelow? true name value path inner).map fun inner =>
        setField fields step (.table .dotted inner)
    | some (.table .implied inner) =>
      (insertBelow? false name value path inner).map fun inner =>
        setField fields step (.table .implied inner)
    | some (.tables items) =>
      match items.getLast? with
      | none => none
      | some inner =>
        (insertBelow? false name value path inner).map fun inner =>
          setField fields step (.tables (items.dropLast ++ [inner]))
    | some _ => none

/-- Put a value under a key of one or more names. -/
def insert? (key : List Text) (value : Toml) (fields : Fields) : Option Fields :=
  match key.getLast? with
  | none => none
  | some name => insertBelow? true name value key.dropLast fields

/-! ## Headers -/

/-- Change the table at the end of a path.  Tables that are missing on the way come into being, and
an array of tables is entered at its last item.  Inline tables and other values are not entered. -/
def within? (change : Fields → Option Fields) : List Text → Fields → Option Fields
  | [], fields => change fields
  | step :: path, fields =>
    match fields.lookup step with
    | none =>
      (within? change path []).map fun inner => fields ++ [(step, .table .implied inner)]
    | some (.table .inline _) => none
    | some (.table kind inner) =>
      (within? change path inner).map fun inner => setField fields step (.table kind inner)
    | some (.tables items) =>
      match items.getLast? with
      | none => none
      | some inner =>
        (within? change path inner).map fun inner =>
          setField fields step (.tables (items.dropLast ++ [inner]))
    | some _ => none

/-- Open a table by its header.  It must be new, or have been no more than implied so far. -/
def openTable? (name : Text) (fields : Fields) : Option Fields :=
  match fields.lookup name with
  | none => some (fields ++ [(name, .table .header [])])
  | some (.table .implied inner) => some (setField fields name (.table .header inner))
  | some _ => none

/-- Open a new item of an array of tables by its header. -/
def openItem? (name : Text) (fields : Fields) : Option Fields :=
  match fields.lookup name with
  | none => some (fields ++ [(name, .tables [[]])])
  | some (.tables items) => some (setField fields name (.tables (items ++ [[]])))
  | some _ => none

end LuaUnveil.Toml
