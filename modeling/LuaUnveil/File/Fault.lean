import LuaUnveil.Text.Basic

/-!
# Faults of the file system

Why a file could not be read or written, and the wording of each reason.
-/

namespace LuaUnveil

/-- Why a file could not be read or written. -/
inductive FileFault where
  | notFound
  | notDirectory
  | isDirectory
  | nameTooLong
  /-- The path has a NUL character in it. -/
  | nulInPath
  /-- The content is not valid UTF-8. -/
  | notText
  /-- Any other reason, in the words of the system. -/
  | other (message : Text)
  deriving Repr, DecidableEq

/-- The wording of a fault. -/
def FileFault.message : FileFault → Text
  | notFound => "No such file or directory (os error 2)".toList
  | notDirectory => "Not a directory (os error 20)".toList
  | isDirectory => "Is a directory (os error 21)".toList
  | nameTooLong => "File name too long (os error 36)".toList
  | nulInPath => "file name contained an unexpected NUL byte".toList
  | notText => "stream did not contain valid UTF-8".toList
  | other message => message

end LuaUnveil
