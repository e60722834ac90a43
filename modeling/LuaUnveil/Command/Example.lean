import LuaUnveil.Report.Terminal

/-!
# Bundled examples

Three small obfuscated scripts that come with the program, for trying it out.
-/

namespace LuaUnveil

/-- A bundled script. -/
structure Example where
  name : Text
  description : Text
  source : Text
  deriving Repr, DecidableEq

namespace Example

/-- Lines of a script with line breaks between them, and none behind the last. -/
def script (ls : List String) : Text := ['\n'].intercalate (ls.map String.toList)

/-- Escaped text and short names. -/
def simple : Example where
  name := "simple".toList
  description := "Basic variable renaming and string decoding".toList
  source := script [
    "local a1b2c3 = \"\\72\\101\\108\\108\\111\"",
    "local d4e5f6 = function(g7h8i9) ",
    "  return g7h8i9 + 1 ",
    "end",
    "local j0k1l2 = d4e5f6(5)",
    "print(a1b2c3 .. \" \" .. tostring(j0k1l2))"]

/-- A function, a loop and a condition. -/
def medium : Example where
  name := "medium".toList
  description := "Function analysis with loops and conditionals".toList
  source := script [
    "local a123456 = \x7b\x7d",
    "local b789012 = function(c345678, d901234)",
    "  local e567890 = c345678 * 2 + 0",
    "  if e567890 > 10 then",
    "    return d901234 .. \"\\87\\111\\114\\108\\100\"",
    "  else",
    "    return \"\\70\\97\\105\\108\"",
    "  end",
    "end",
    "for f234567 = 1, 10 do",
    "  a123456[f234567] = b789012(f234567, \"\\72\\101\\108\\108\\111\")",
    "end"]

/-- Loaded code and tables. -/
def complex : Example where
  name := "complex".toList
  description := "Advanced obfuscation with loadstring and tables".toList
  source := script [
    "local x9f3a2b = loadstring(\"\\114\\101\\116\\117\\114\\110\\32\\102\\117\\110\\99\\116\\105\\111\\110\\40\\97\\44\\98\\41\\32\\114\\101\\116\\117\\114\\110\\32\\97\\43\\98\\32\\101\\110\\100\")()",
    "local y8e2d1c = \x7b[\"\\107\\101\\121\\49\"] = \"\\118\\97\\108\\117\\101\\49\", [\"\\107\\101\\121\\50\"] = \"\\118\\97\\108\\117\\101\\50\"\x7d",
    "local z7d1f2e = function(w6c0e3f, v5b9d4g, u4a8c5h)",
    "  local t3z7b6i = w6c0e3f(v5b9d4g, u4a8c5h)",
    "  return t3z7b6i * 1",
    "end",
    "local s2y6a7j = z7d1f2e(x9f3a2b, 5, 3)",
    "for k1x5z8l, m0w4y9n in pairs(y8e2d1c) do",
    "  print(k1x5z8l, m0w4y9n, s2y6a7j)",
    "end"]

/-- All examples, in the order in which they are listed. -/
def all : List Example := [simple, medium, complex]

/-- The example of a name. -/
def find? (name : Text) : Option Example := all.find? fun e => e.name == name

/-- A name in a column of ten characters. -/
def column (name : Text) : Text := name ++ List.replicate (10 - name.length) ' '

/-- The list of examples that a user is shown. -/
def renderList (colours : Bool) : Text :=
  unlines (
    Emphasis.bold.paint colours "Bundled examples".toList ::
    all.map (fun e =>
      "  ".toList ++ Emphasis.cyan.paint colours (column e.name) ++ ' ' :: e.description) ++
    [[], "Run one with: luadeob run --example <name>".toList])

end Example

end LuaUnveil
