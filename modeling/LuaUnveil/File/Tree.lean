import LuaUnveil.File.Fault
import LuaUnveil.File.Path

/-!
# File trees

A file tree as a value: which directories and files there are, and what the files hold.  Reading
and writing follow a path from a working directory, name by name, through existing directories.

* `FileTree.walk`: follow the parts of a path.
* `FileTree.read`, `FileTree.has`, `FileTree.write`: the operations of the commands.
* `FileTree.place`: put a file or a directory where none is, with the directories above it.
-/

namespace LuaUnveil

/-- What a file holds: text, or bytes that are no text. -/
inductive Content where
  | text (t : Text)
  | bytes (data : List UInt8)
  deriving Repr, DecidableEq

/-- The content that bytes are: text if they are valid UTF-8. -/
def Content.ofBytes (data : List UInt8) : Content :=
  match String.fromUTF8? ⟨data.toArray⟩ with
  | some s => text s.toList
  | none => bytes data

/-- Something at a place of a file tree. -/
inductive FileEntry where
  | directory
  | file (content : Content)
  deriving Repr, DecidableEq

/-- A place in a file tree: the names on the way from the root. -/
abbrev Place := List Text

/-- A file tree: what stands at which place.  The root is always a directory, and the latest entry
of a place is the first one in the list. -/
structure FileTree where
  entries : List (Place × FileEntry) := []
  deriving Repr, DecidableEq

namespace FileTree

/-- What stands at a place. -/
def at? (tree : FileTree) (place : Place) : Option FileEntry :=
  if place.isEmpty then some .directory else tree.entries.lookup place

/-- Let an entry stand at a place. -/
def insert (tree : FileTree) (place : Place) (entry : FileEntry) : FileTree :=
  { tree with entries := (place, entry) :: tree.entries.filter (·.1 != place) }

/-- Put an entry at a place, with the directories above it. -/
def place (tree : FileTree) (target : Place) (entry : FileEntry) : FileTree :=
  let above := (List.range target.length).map target.take
  let grown := above.foldl (fun t p => if (t.at? p).isSome then t else t.insert p .directory) tree
  grown.insert target entry

/-! ## Following a path -/

/-- Follow parts from a place.  At each part the place so far must be a directory: an empty part
and a dot stay there, two dots go up, and a name goes down.  The place that is reached need not
exist. -/
def walk (tree : FileTree) (here : Place) : List Text → Except FileFault Place
  | [] => .ok here
  | part :: later =>
    match tree.at? here with
    | none => .error .notFound
    | some (.file _) => .error .notDirectory
    | some .directory =>
      if part = [] ∨ part = ['.'] then walk tree here later
      else if part = ['.', '.'] then walk tree here.dropLast later
      else if 255 < (String.ofList part).utf8ByteSize then .error .nameTooLong
      else walk tree (here ++ [part]) later

/-- Where a path starts: at the root, or in the working directory. -/
def origin (workDir : Place) (path : Text) : Place := if Path.isAbsolute path then [] else workDir

/-- The absolute path of a directory, if it is still there. -/
def absolutePath (tree : FileTree) (place : Place) : Except FileFault Text :=
  match tree.at? place with
  | some .directory => .ok ('/' :: Path.ofParts place)
  | _ => .error .notFound

/-- What makes a path unusable before it is followed. -/
def pathFault? (path : Text) : Option FileFault :=
  if path.contains '\x00' then some .nulInPath
  else if path.isEmpty then some .notFound
  else if 4095 < (String.ofList path).utf8ByteSize then some .nameTooLong
  else none

/-- The place that a path leads to. -/
def locate (tree : FileTree) (workDir : Place) (path : Text) : Except FileFault Place :=
  match pathFault? path with
  | some fault => .error fault
  | none => tree.walk (origin workDir path) (Path.parts path)

/-! ## Reading and writing -/

/-- Whether something stands where a path leads. -/
def has (tree : FileTree) (workDir : Place) (path : Text) : Bool :=
  match tree.locate workDir path with
  | .ok place => (tree.at? place).isSome
  | .error _ => false

/-- The text of the file that a path leads to. -/
def read (tree : FileTree) (workDir : Place) (path : Text) : Except FileFault Text := do
  match tree.at? (← tree.locate workDir path) with
  | none => .error .notFound
  | some .directory => .error .isDirectory
  | some (.file (.bytes _)) => .error .notText
  | some (.file (.text t)) => .ok t

/-- The place at which a path asks for a file to be written: in an existing directory, under a
name.  A path that ends in a slash or in dots names a directory. -/
def locateNew (tree : FileTree) (workDir : Place) (path : Text) : Except FileFault Place := do
  if let some fault := pathFault? path then .error fault
  let parts := Path.parts path
  let names := (parts.reverse.dropWhile (· == [])).reverse
  let last := names.getLastD []
  if last = [] ∨ last = ['.'] ∨ last = ['.', '.'] then
    let place ← tree.walk (origin workDir path) names
    if (tree.at? place).isSome then .error .isDirectory else .error .notFound
  else
    let directory ← tree.walk (origin workDir path) names.dropLast
    match tree.at? directory with
    | none => .error .notFound
    | some (.file _) => .error .notDirectory
    | some .directory =>
      if names.length < parts.length then .error .isDirectory
      else if 255 < (String.ofList last).utf8ByteSize then .error .nameTooLong
      else .ok (directory ++ [last])

/-- Write a text to the file that a path names, which is made if it does not exist. -/
def write (tree : FileTree) (workDir : Place) (path text : Text) : Except FileFault FileTree := do
  let place ← tree.locateNew workDir path
  match tree.at? place with
  | some .directory => .error .isDirectory
  | _ => .ok (tree.insert place (.file (.text text)))

/-- The files that are new or different since an earlier state of the tree, with their content. -/
def changesSince (tree earlier : FileTree) : List (Place × Content) :=
  tree.entries.filterMap fun
    | (place, .file content) =>
      if earlier.at? place = some (.file content) then none else some (place, content)
    | (_, .directory) => none

end FileTree

end LuaUnveil
