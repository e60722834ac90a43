import LuaUnveil.DeadCode.Remove
import LuaUnveil.Escape.Decimal
import LuaUnveil.Escape.Hex
import LuaUnveil.Escape.Literal
import LuaUnveil.Expression.Simplify
import LuaUnveil.Layout.Lines
import LuaUnveil.Layout.Operators
import LuaUnveil.Naming.Declaration
import LuaUnveil.Naming.Shape
import LuaUnveil.Session.Basic

/-!
# Passes

A pass turns the text of a script into a new text, and may use and extend the session.

* `Pass.run`: one pass over a text.
* `Pass.runAll`: passes one after the other, and `Pass.trace`: the text after each of them.
* `Pass.standard`: the seven passes that deobfuscate a script, in their order.
-/

namespace LuaUnveil

/-- The passes: the seven of the standard order, and the parts of two of them on their own. -/
inductive Pass where
  | decodeStrings | formatCode | renameIdentifiers | renameFunctions | simplifyExpressions
  | removeDeadCode | finalFormat
  | decodeHex | decodeDecimal | foldLiterals | simplifyOnce | simplifyFully
  deriving Repr, DecidableEq

namespace Pass

/-- Every pass. -/
def all : List Pass := [
  decodeStrings, formatCode, renameIdentifiers, renameFunctions, simplifyExpressions,
  removeDeadCode, finalFormat, decodeHex, decodeDecimal, foldLiterals, simplifyOnce, simplifyFully]

/-- The seven passes that deobfuscate a script, in their order. -/
def standard : List Pass := [
  decodeStrings, formatCode, renameIdentifiers, renameFunctions, simplifyExpressions,
  removeDeadCode, finalFormat]

/-- The name under which a pass is known. -/
def name : Pass → String
  | decodeStrings => "decode strings"
  | formatCode => "format code"
  | renameIdentifiers => "rename identifiers"
  | renameFunctions => "rename functions"
  | simplifyExpressions => "simplify expressions"
  | removeDeadCode => "remove dead code"
  | finalFormat => "final format"
  | decodeHex => "decode hex"
  | decodeDecimal => "decode numeric"
  | foldLiterals => "fold literals"
  | simplifyOnce => "simplify once"
  | simplifyFully => "simplify fixed"

/-- The pass of a name. -/
def ofName? (name : String) : Option Pass := all.find? fun pass => pass.name == name

end Pass

namespace Session

/-- Decode the hexadecimal escapes, and warn about the refused ones.  They are not recorded. -/
def decodeHex (session : Session) (text : Text) : Text × Session :=
  (HexEscape.decode text,
    session.warnUndecoded ((HexEscape.refused text).map HexEscape.warning))

/-- Decode the decimal escapes and record them, and warn about the refused ones. -/
def decodeDecimal (session : Session) (text : Text) : Text × Session :=
  let recorded :=
    { session with escapes := session.escapes.recordAll (DecimalEscape.decoded text) }
  (DecimalEscape.decode text,
    recorded.warnUndecoded ((DecimalEscape.refused text).map DecimalEscape.warning))

/-- Decode all escapes, first the hexadecimal and then the decimal ones, and merge neighbouring
literals. -/
def decodeStrings (session : Session) (text : Text) : Text × Session :=
  let (text, session) := session.decodeHex text
  let (text, session) := session.decodeDecimal text
  (LuaUnveil.foldLiterals text, session)

/-- Name the generated words that the text holds, and rename every named word that can be searched
for. -/
def renameIdentifiers [SearchEngine] (session : Session) (text : Text) : Text × Session :=
  let table := session.identifiers.assignAll (generatedNames text)
  (table.apply text, { session with identifiers := table })

/-- Name the generated functions that the text declares, and rename every named function that can be
searched for. -/
def renameFunctions [SearchEngine] (session : Session) (text : Text) : Text × Session :=
  let table := session.functions.assignAll (declaredFunctions text)
  (table.apply text, { session with functions := table })

/-- Simplify expressions once, or fully if the options ask for it. -/
def simplifyExpressions (session : Session) (text : Text) : Text :=
  if session.options.simplifyFully then LuaUnveil.simplifyFully text
  else LuaUnveil.simplifyOnce text

end Session

namespace Pass

/-- Run one pass over a text. -/
def run [SearchEngine] : Pass → Session → Text → Text × Session
  | decodeStrings, session, text => session.decodeStrings text
  | formatCode, session, text => (LuaUnveil.formatCode text, session)
  | renameIdentifiers, session, text => session.renameIdentifiers text
  | renameFunctions, session, text => session.renameFunctions text
  | simplifyExpressions, session, text => (session.simplifyExpressions text, session)
  | removeDeadCode, session, text => (LuaUnveil.removeDeadCode text, session)
  | finalFormat, session, text => (LuaUnveil.finalFormat text, session)
  | decodeHex, session, text => session.decodeHex text
  | decodeDecimal, session, text => session.decodeDecimal text
  | foldLiterals, session, text => (LuaUnveil.foldLiterals text, session)
  | simplifyOnce, session, text => (LuaUnveil.simplifyOnce text, session)
  | simplifyFully, session, text => (LuaUnveil.simplifyFully text, session)

/-- Run passes one after the other. -/
def runAll [SearchEngine] (passes : List Pass) (session : Session) (text : Text) :
    Text × Session :=
  passes.foldl (fun state pass => pass.run state.2 state.1) (text, session)

/-- Run passes one after the other, and note the text after each of them. -/
def trace [SearchEngine] : List Pass → Session → Text → List (Pass × Text)
  | [], _, _ => []
  | pass :: later, session, text =>
    let (next, session) := pass.run session text
    (pass, next) :: trace later session next

end Pass

end LuaUnveil
