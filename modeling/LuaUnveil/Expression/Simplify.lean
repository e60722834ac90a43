import LuaUnveil.Expression.Identity

/-!
# Simplifying expressions

One round applies each identity once, in order.  What one round uncovers is left for the next, so
nested paddings may need several rounds.
-/

namespace LuaUnveil

/-- One round: every identity once, in order. -/
def simplifyOnce (text : Text) : Text :=
  Identity.all.foldl (fun t identity => identity.apply t) text

/-- Repeat rounds until one changes nothing, but at most so many of them. -/
def simplifyUpTo : Nat → Text → Text
  | 0, text => text
  | rounds + 1, text =>
    let next := simplifyOnce text
    if next = text then text else simplifyUpTo rounds next

/-- The most rounds that are ever made. -/
def maxRounds : Nat := 64

/-- Repeat rounds until nothing changes, or the most rounds are made. -/
def simplifyFully (text : Text) : Text := simplifyUpTo maxRounds text

end LuaUnveil
