import LuaUnveil.Command.Program

/-!
# The command line

The program on the real system: a host whose files are the files of the system, and `main`.
-/

namespace LuaUnveil

/-- The fault that a system error stands for. -/
def faultOf : IO.Error → FileFault
  | .noFileOrDirectory .. => .notFound
  | .noSuchThing .. => .notFound
  | .inappropriateType _ code details =>
    -- the code comes with either sign, depending on the call that failed
    if code = 20 ∨ 0 - code = 20 then .notDirectory
    else if code = 21 ∨ 0 - code = 21 then .isDirectory
    else .other details.toList
  | error => .other error.toString.toList

/-- An action on the system, with its fault as a value. -/
def catching {α : Type} (action : IO α) : IO (Except FileFault α) := do
  try
    return .ok (← action)
  catch error =>
    return .error (faultOf error)

/-- The text of bytes that were read. -/
def textOf (data : ByteArray) : Except FileFault Text :=
  match Content.ofBytes data.toList with
  | .text t => .ok t
  | .bytes _ => .error .notText

/-- Everything up to the end of a stream. -/
partial def readToEnd (stream : IO.FS.Stream) (soFar : ByteArray) : IO ByteArray := do
  let chunk ← stream.read 65536
  if chunk.isEmpty then return soFar else readToEnd stream (soFar ++ chunk)

/-- The real system as a host. -/
def system : Host IO where
  read path := do
    return (← catching (IO.FS.readBinFile (String.ofList path))).bind textOf
  has path := do
    match ← catching (IO.FS.readBinFile (String.ofList path)) with
    | .ok _ => return true
    | .error .isDirectory => return true
    | .error _ => return false
  write path text := catching (IO.FS.writeFile (String.ofList path) (String.ofList text))
  input := do
    let stream ← IO.getStdin
    return (← catching (readToEnd stream .empty)).bind textOf
  workDir := catching do return (← IO.currentDir).toString.toList

/-- The variables of the environment that the program looks at. -/
def environment : IO (String → Option Text) := do
  let names := ["LUADEOB_CONFIG", "CLICOLOR_FORCE", "NO_COLOR", "CLICOLOR"]
  let values ← names.mapM fun name => do
    return (name, (← IO.getEnv name).map String.toList)
  return fun name => (values.lookup name).join

end LuaUnveil

/-- Run the program on the real system. -/
def main (arguments : List String) : IO UInt32 := do
  let stdout ← IO.getStdout
  let stderr ← IO.getStderr
  let environment ← LuaUnveil.environment
  let exit ← LuaUnveil.Program.run LuaUnveil.system environment (← stdout.isTty)
    (arguments.map String.toList)
  stdout.putStr (String.ofList exit.output)
  stderr.putStr (String.ofList exit.errors)
  stdout.flush
  return exit.code.toUInt32
