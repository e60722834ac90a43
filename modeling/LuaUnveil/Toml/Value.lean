import LuaUnveil.Text.Basic

/-!
# TOML values

Settings are written in TOML.  A value keeps what the settings can use, and of anything else only
whether it can be read at all.

* `Toml`: the values.
* `Toml.isReadable`: whether every number in a value has a value of its own.
-/

namespace LuaUnveil

/-- How a table came into being, which decides how it can be extended later. -/
inductive TableKind where
  /-- Written in braces; complete. -/
  | inline
  /-- Opened by its own header; complete but for subtables. -/
  | header
  /-- On the way to a table with a header; may still be opened by its own header. -/
  | implied
  /-- On the way to a value with a dotted key. -/
  | dotted
  deriving Repr, DecidableEq

/-- TOML values.  The fields of a table stand in the order in which they were written. -/
inductive Toml where
  | string (t : Text)
  /-- A number.  A document only fixes its outline; whether its digits are those of its base and it
  is in the range of numbers matters first where the number is looked at, and is all that is
  kept. -/
  | number (hasValue : Bool)
  | bool (b : Bool)
  /-- A date, a time, or both. -/
  | moment
  | array (items : List Toml)
  /-- An array of tables that was built up by headers, in the order of the headers. -/
  | tables (items : List (List (Text × Toml)))
  | table (kind : TableKind) (fields : List (Text × Toml))
  deriving Repr

/-- The fields of a table. -/
abbrev Fields := List (Text × Toml)

namespace Toml

mutual

/-- Whether every number in a value has a value of its own. -/
def isReadable : Toml → Bool
  | string _ => true
  | number hasValue => hasValue
  | bool _ => true
  | moment => true
  | array items => allReadable items
  | tables items => allTablesReadable items
  | table _ fields => allFieldsReadable fields

/-- Whether every item of an array is readable. -/
def allReadable : List Toml → Bool
  | [] => true
  | item :: later => isReadable item && allReadable later

/-- Whether every field of a table is readable. -/
def allFieldsReadable : List (Text × Toml) → Bool
  | [] => true
  | (_, value) :: later => isReadable value && allFieldsReadable later

/-- Whether every table of an array of tables is readable. -/
def allTablesReadable : List (List (Text × Toml)) → Bool
  | [] => true
  | fields :: later => allFieldsReadable fields && allTablesReadable later

end

end Toml

end LuaUnveil
