import LuaUnveil.Naming.Pool
import LuaUnveil.Naming.Search
import LuaUnveil.Text.Ledger
import LuaUnveil.Text.Scan
import LuaUnveil.Text.Word

/-!
# Rename tables

A rename table maps tokens to their new names, in the order in which the tokens were first seen.
The `i`-th new token gets the `i`-th name of the table's pool, and keeps it.

* `RenameTable.nameFor`: the name of a token, given to it now or before, and the table with it.
* `RenameTable.assign`: the table after that.
* `replaceToken`: put a new name in the place of one token, wherever it stands as a whole.
* `RenameTable.apply`: do so for every entry, one entry after the other.  A token that the search
  engine refuses is left in the text.
-/

namespace LuaUnveil

/-! ## Replacing one token -/

/-- A nonempty token with a word edge at both of its ends. -/
def wholeToken (token : Text) : Pattern Unit := fun before text =>
  match skip? token text with
  | some rest =>
    if isWordEdge before text.head? && isWordEdge token.getLast? rest.head? then
      some ⟨(), token⟩
    else none
  | none => none

/-- Insert a text at every word edge. -/
def insertAtWordEdges (insertion : Text) (before : Option Char) : Text → Text
  | [] => if isWordEdge before none then insertion else []
  | c :: rest =>
    (if isWordEdge before (some c) then insertion else []) ++
      c :: insertAtWordEdges insertion (some c) rest

/-- Put `replacement` wherever `token` stands between two word edges.  The empty token stands at
every word edge, and nothing is taken away there. -/
def replaceToken (token replacement : Text) (text : Text) : Text :=
  match token with
  | [] => insertAtWordEdges replacement none text
  | c :: rest => replaceAll (wholeToken (c :: rest)) (fun _ => replacement) text

/-! ## The table -/

/-- Tokens with their new names, in the order of first assignment. -/
structure RenameTable extends Ledger Text where
  pool : NamePool
  deriving Repr, DecidableEq

namespace RenameTable

/-- The name of a token, and the table that then holds it.  A token without a name gets the next
name of the pool. -/
def nameFor (table : RenameTable) (token : Text) : Text × RenameTable :=
  let written := table.write token (table.pool.nameAt table.size)
  (written.1, { table with toLedger := written.2 })

/-- Give a token the next name of the pool, unless the token has a name already. -/
def assign (table : RenameTable) (token : Text) : RenameTable := (table.nameFor token).2

/-- Assign the tokens of a list, in order. -/
def assignAll (table : RenameTable) (tokens : List Text) : RenameTable := tokens.foldl assign table

/-- Rename every whole occurrence of each token, one entry after the other in their order.  A token
whose pattern the engine refuses is not renamed. -/
def apply [SearchEngine] (table : RenameTable) (text : Text) : Text :=
  table.entries.foldl (fun t entry =>
    if SearchEngine.compiles entry.1 then replaceToken entry.1 entry.2 t else t) text

end RenameTable

end LuaUnveil
