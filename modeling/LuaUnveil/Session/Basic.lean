import LuaUnveil.Escape.Table
import LuaUnveil.Naming.Table

/-!
# Sessions

A session is what the passes over one script share: the two rename tables, the table of decoded
escapes, the warnings so far, and the options.

* `Session.start`: a session with empty tables.
* `Session.warn`: add a warning, unless the same one was given before.
-/

namespace LuaUnveil

/-- What the user can choose about the passes. -/
structure Options where
  /-- Simplify expressions until nothing changes, and not only once. -/
  simplifyFully : Bool := false
  /-- Warn about the escapes that are left as they are. -/
  reportUndecoded : Bool := false
  deriving Repr, DecidableEq

/-- The state that the passes over one script share. -/
structure Session where
  identifiers : RenameTable := { pool := identifierNames }
  functions : RenameTable := { pool := functionNames }
  escapes : EscapeTable := {}
  warnings : List Text := []
  options : Options := {}
  deriving Repr, DecidableEq

namespace Session

/-- The session at the start of a script. -/
def start (options : Options) : Session := { options := options }

/-- Add a warning, unless it is there already. -/
def warn (session : Session) (message : Text) : Session :=
  if session.warnings.contains message then session
  else { session with warnings := session.warnings ++ [message] }

/-- Add warnings, in order, if the options ask for them. -/
def warnUndecoded (session : Session) (messages : List Text) : Session :=
  if session.options.reportUndecoded then messages.foldl warn session else session

end Session

end LuaUnveil
