import LuaUnveil.Text.Ledger

/-!
# The table of decoded escapes

The decimal escapes that were decoded, by their exact spelling, in the order of first use.  The
first record of a spelling stands.
-/

namespace LuaUnveil

/-- Escapes with the characters that they stood for, in the order of first record. -/
structure EscapeTable extends Ledger Char
  deriving Repr, DecidableEq

namespace EscapeTable

/-- Record an escape, unless it is recorded already. -/
def record (table : EscapeTable) (escape : Text) (c : Char) : EscapeTable :=
  { toLedger := (table.write escape c).2 }

/-- Record the escapes of a list, in order. -/
def recordAll (table : EscapeTable) (escapes : List (Text × Char)) : EscapeTable :=
  escapes.foldl (fun t e => t.record e.1 e.2) table

end EscapeTable

end LuaUnveil
