/-!
# Why a file cannot be used

Reading and writing files can fail for reasons that lie with the path, with what stands there, or
with the system. The wording is the one that the system has for each reason.
-/

namespace Stencil

/-- Why a file cannot be read or written. -/
inductive FileFault where
  /-- Nothing stands at the path, or the directory that should hold it does not exist. -/
  | missing
  /-- The path leads through something that is no directory. -/
  | notDirectory
  /-- A directory stands at the path. -/
  | isDirectory
  /-- The contents are not UTF-8. -/
  | notText
  /-- The path holds the character with which paths end. -/
  | nulInPath
  /-- The path, or a name on the way, has too many bytes. -/
  | nameTooLong
  /-- Any other reason, in the system's words. -/
  | other (message : String)
deriving Repr, DecidableEq

/-- The wording of a reason. -/
def FileFault.message : FileFault → String
  | missing => "No such file or directory (os error 2)"
  | notDirectory => "Not a directory (os error 20)"
  | isDirectory => "Is a directory (os error 21)"
  | notText => "stream did not contain valid UTF-8"
  | nulInPath => "file name contained an unexpected NUL byte"
  | nameTooLong => "File name too long (os error 36)"
  | other message => message

/-- What reading files gives: the text at a path, or why it cannot be read. -/
abbrev FileReader := String → Except FileFault String

end Stencil
