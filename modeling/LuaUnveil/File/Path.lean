import LuaUnveil.Text.Basic

/-!
# Paths

A path is a text with slashes.  The operations here are lexical: they look at the spelling alone,
and so `..` and links are not resolved.

* `Path.join`: a path below a directory.
* `Path.parent?`: the path without its last name.
* `Path.ancestors`: a path, its parent, and so on, up to a number of them.
-/

namespace LuaUnveil.Path

/-- The parts of a path between its slashes. -/
def parts (path : Text) : List Text := path.splitOn '/'

/-- Parts with slashes between them. -/
def ofParts (ps : List Text) : Text := ['/'].intercalate ps

/-- Whether a path starts at the root. -/
def isAbsolute (path : Text) : Bool := path.head? == some '/'

/-- A path as seen from a directory: an absolute one is itself. -/
def join (directory path : Text) : Text :=
  if isAbsolute path || directory.isEmpty then path
  else if directory.getLast? == some '/' then directory ++ path
  else directory ++ '/' :: path

/-- Remove the parts at the end that name nothing: empty ones, and dots behind the first part. -/
def dropIdleEnd : List Text → List Text
  | [] => []
  | first :: later =>
    match (later.reverse.dropWhile fun part => part == [] || part == ['.']).reverse with
    | [] => if first.isEmpty then [] else [first]
    | kept => first :: kept

/-- The path without its last name, if it has one.  Trailing slashes and dots are no names, and a
single dot at the very start of a relative path is one. -/
def parent? : Text → Option Text
  | '/' :: body =>
    match dropIdleEnd ([] :: parts body) with
    | [] => none
    | names => some ('/' :: ofParts (dropIdleEnd names.dropLast).tail)
  | path =>
    match dropIdleEnd (parts path) with
    | [] => none
    | names => some (ofParts (dropIdleEnd names.dropLast))

/-- A path and its ancestors, nearest first, at most `n` in all. -/
def ancestors (path : Text) : Nat → List Text
  | 0 => []
  | n + 1 =>
    path ::
      match parent? path with
      | some parent => ancestors parent n
      | none => []

end LuaUnveil.Path
