/-!
# Disks

The file operations that the commands need, for any way of keeping files: the files of the
operating system, or a folder held in memory.
-/
namespace Breadboard.Console

/-- Why a file cannot be read or created. -/
inductive FileError where
  | notFound
  | notDirectory
  | isDirectory
  | nameTooLong
  /-- The path holds the character zero, which no file name may hold. -/
  | zeroInPath
  | notUtf8
  | other (message : String)
  deriving DecidableEq, Repr

def FileError.message : FileError → String
  | notFound => "No such file or directory (os error 2)"
  | notDirectory => "Not a directory (os error 20)"
  | isDirectory => "Is a directory (os error 21)"
  | nameTooLong => "File name too long (os error 36)"
  | zeroInPath => "file name contained an unexpected NUL byte"
  | notUtf8 => "stream did not contain valid UTF-8"
  | other message => message

structure Disk (m : Type → Type) where
  /-- A file that is open for writing. -/
  File : Type
  /-- The text of a file. -/
  read : String → m (Except FileError String)
  /-- Creates a file, or empties it if it is there. -/
  create : String → m (Except FileError File)
  /-- Writes a text at the start of a file, over what is there. -/
  write : File → String → m Unit

end Breadboard.Console
