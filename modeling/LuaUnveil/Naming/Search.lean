import LuaUnveil.Text.Basic

/-!
# The search engine

A token is searched for with a pattern of its own, and the engine that runs the patterns is given
from outside.  It refuses a pattern that is too large once it is compiled, and the token is then not
searched for at all.

* `SearchEngine`: which tokens the engine takes.  Nothing is assumed about it.
* `SearchEngine.standard`: the engine that the program runs with.
-/

namespace LuaUnveil

/-- An engine that searches texts for tokens. -/
class SearchEngine where
  /-- Whether the engine takes the pattern of a token. -/
  compiles : Text → Bool

/-- The standard engine has ten mebibytes for a compiled pattern, and takes 32 bytes of them for
each byte of the token. -/
instance SearchEngine.standard : SearchEngine where
  compiles token := 32 * (String.ofList token).utf8ByteSize ≤ 10 * 1024 * 1024

end LuaUnveil
