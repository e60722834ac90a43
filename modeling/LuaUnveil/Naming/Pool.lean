import LuaUnveil.Text.Numeral

/-!
# Pools of readable names

A renamed token gets its new name from a pool, an ordered list of words.  The pool is gone through
again and again: the first lap hands out the bare words, and lap `n` hands them out with `_n`
appended.

* `NamePool.nameAt`: the name for the `i`-th token that asks.
* `identifierNames`, `functionNames`: the two pools of the program, nouns for variables and verbs
  for functions.
-/

namespace LuaUnveil

/-- An ordered list of replacement words, with a label. -/
structure NamePool where
  label : Text
  words : List Text
  deriving Repr, DecidableEq

namespace NamePool

/-- The number of words in the pool. -/
def size (pool : NamePool) : Nat := pool.words.length

/-- A word with the number of a lap. -/
def numbered (word : Text) (lap : Nat) : Text := word ++ '_' :: decimal lap

/-- The name for the `i`-th token: the words in turn, and from the second lap on with the lap's
number.  A pool without words numbers its label instead. -/
def nameAt (pool : NamePool) (i : Nat) : Text :=
  match pool.words[i % pool.size]? with
  | none => numbered pool.label i
  | some word => if i / pool.size = 0 then word else numbered word (i / pool.size)

end NamePool

/-- Nouns, handed out to variables. -/
def identifierNames : NamePool where
  label := "identifiers".toList
  words := [
    "player", "game", "character", "position", "velocity", "health", "score", "level", "weapon",
    "item", "inventory", "skill", "experience", "gold", "magic", "spell", "ability", "status",
    "effect", "timer", "counter", "flag", "state", "mode", "config", "setting", "option", "value",
    "result", "output", "input", "data", "info", "message", "text", "string", "number", "boolean",
    "table", "array", "list", "queue"].map String.toList

/-- Verbs, handed out to functions. -/
def functionNames : NamePool where
  label := "functions".toList
  words := [
    "initialize", "update", "render", "process", "handle", "execute", "perform", "calculate",
    "validate", "transform"].map String.toList

end LuaUnveil
