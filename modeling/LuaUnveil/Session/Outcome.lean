import LuaUnveil.Session.Pass
import LuaUnveil.Session.Statistics

/-!
# Outcomes

The outcome of a script: its deobfuscated code, the statistics, and the warnings.  Deobfuscating
never fails: what no pass recognises goes through unchanged.
-/

namespace LuaUnveil

/-- What deobfuscating a script gives. -/
structure Outcome where
  code : Text
  statistics : Statistics
  warnings : List Text
  deriving Repr, DecidableEq

/-- The outcome of a list of passes over a script. -/
def Outcome.ofPasses [SearchEngine] (passes : List Pass) (options : Options) (source : Text) :
    Outcome :=
  let (code, session) := Pass.runAll passes (.start options) source
  { code, statistics := session.statistics source code, warnings := session.warnings }

/-- Deobfuscate a script with the standard passes. -/
def deobfuscate [SearchEngine] (options : Options) (source : Text) : Outcome :=
  Outcome.ofPasses Pass.standard options source

end LuaUnveil
