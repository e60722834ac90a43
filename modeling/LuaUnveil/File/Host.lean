import LuaUnveil.File.Tree

/-!
# Hosts

What a command asks of the system that it runs on: reading and writing files, whether a file
exists, the standard input, and the working directory.  The commands are written once for any host.
A file tree is a host, and so is the real system in `Main.lean`.
-/

namespace LuaUnveil

/-- The system that a command runs on. -/
structure Host (m : Type → Type) where
  /-- The text of the file at a path. -/
  read : Text → m (Except FileFault Text)
  /-- Whether something stands at a path. -/
  has : Text → m Bool
  /-- Write a text to the file at a path. -/
  write : Text → Text → m (Except FileFault Unit)
  /-- All of the standard input. -/
  input : m (Except FileFault Text)
  /-- The working directory, as an absolute path. -/
  workDir : m (Except FileFault Text)

/-- A file tree as a host: the tree is the state, next to a fixed working directory and a fixed
standard input. -/
def FileTree.host (workDir : Place) (input : Content) : Host (StateM FileTree) where
  read path := do return (← get).read workDir path
  has path := do return (← get).has workDir path
  write path text := do
    match (← get).write workDir path text with
    | .ok tree =>
      set tree
      return .ok ()
    | .error fault => return .error fault
  input :=
    return match input with
      | .text t => .ok t
      | .bytes _ => .error .notText
  workDir := do return (← get).absolutePath workDir

end LuaUnveil
