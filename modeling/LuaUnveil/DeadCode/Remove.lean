import LuaUnveil.DeadCode.EmptyFunction
import LuaUnveil.DeadCode.NilLocal

/-!
# Dead code

Two literal forms of dead code are dropped, one after the other: empty functions, then locals that
hold nothing.  Whether the names are used elsewhere is not looked at.
-/

namespace LuaUnveil

/-- The text without its empty functions, and then without its locals that hold nothing. -/
def removeDeadCode (text : Text) : Text := dropNilLocals (dropEmptyFunctions text)

end LuaUnveil
