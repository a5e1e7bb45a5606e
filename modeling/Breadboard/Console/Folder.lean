import Breadboard.Console.Disk
import Breadboard.Text.Lines

/-!
# Folders in memory

A working directory as a value: the paths of its files with their bytes. A directory is there
as long as there is a file in it. What lies outside the folder is not known: there are the
directories that hold it, and in them nothing is found.
-/
namespace Breadboard.Console

structure Folder where
  /-- The files, each under the components of its path. -/
  files : List (List String × ByteArray) := []

namespace Folder

def bytes? (f : Folder) (path : List String) : Option ByteArray :=
  (f.files.find? (·.1 == path)).map (·.2)

/-- Puts bytes under a path in place of those that are there. -/
def put (f : Folder) (path : List String) (bytes : ByteArray) : Folder :=
  if f.files.any (·.1 == path) then
    { files := f.files.map fun file => if file.1 == path then (path, bytes) else file }
  else { files := f.files ++ [(path, bytes)] }

/-! ## Places -/

/-- Where a path leads. -/
inductive Place where
  /-- To the components below the folder, of which there are none for the folder itself. -/
  | inside (path : List String)
  /-- To a directory that holds the folder. -/
  | outside
  deriving DecidableEq, Repr

namespace Place

def parent : Place → Place
  | inside [] => outside
  | inside path => inside path.dropLast
  | outside => outside

/-- The longest name that a file may have, in bytes. -/
def maxNameSize : Nat := 255

/-- The entry of a directory under a name. -/
def entry (place : Place) (name : String) : Except FileError Place :=
  if name = "." then .ok place
  else if name = ".." then .ok place.parent
  else if name.utf8ByteSize > maxNameSize then .error .nameTooLong
  else match place with
    | inside path => .ok (inside (path ++ [name]))
    | outside => .error .notFound

end Place

def isDirectory (f : Folder) : Place → Bool
  | .inside path => path.isEmpty || f.files.any fun (p, _) => path.isPrefixOf p && p != path
  | .outside => true

def file? (f : Folder) : Place → Option ByteArray
  | .inside path => f.bytes? path
  | .outside => none

/-- Goes on from a directory to one of its entries, which must be a directory too. -/
def descend (f : Folder) (place : Place) (name : String) : Except FileError Place := do
  let next ← place.entry name
  if f.isDirectory next then return next
  throw (if (f.file? next).isSome then .notDirectory else .notFound)

/-! ## Paths -/

def components (path : String) : List String :=
  ((Text.pieces '/' path.toList).map String.ofList).filter (· != "")

/-- Whether a path is written as that of a directory. -/
def endsInSlash (path : String) : Bool := path.toList.getLast? == some '/'

def start (path : String) : Place :=
  if path.toList.head? = some '/' then .outside else .inside []

/-- The size in bytes at which a path is too long. -/
def pathSizeLimit : Nat := 4096

/-- The directory that a path leads to before its last component. -/
def holder (f : Folder) (path : String) : Except FileError Place := do
  if path.toList.contains '\x00' then throw .zeroInPath
  if path = "" then throw .notFound
  if path.utf8ByteSize ≥ pathSizeLimit then throw .nameTooLong
  (components path).dropLast.foldlM f.descend (start path)

/-- The place that the last component of a path leads to from its directory. -/
def last (place : Place) (path : String) : Except FileError Place :=
  match (components path).getLast? with
  | some name => place.entry name
  | none => .ok place

/-! ## Files -/

/-- Adds a file to a folder. -/
def insert (f : Folder) (path : String) (bytes : ByteArray) : Folder :=
  f.put ((components path).filter (· != ".")) bytes

def read (f : Folder) (path : String) : Except FileError String := do
  let place ← last (← f.holder path) path
  if f.isDirectory place then throw .isDirectory
  match f.file? place with
  | none => throw .notFound
  | some bytes =>
    if endsInSlash path then throw .notDirectory
    match String.fromUTF8? bytes with
    | some text => return text
    | none => throw .notUtf8

/-- Creates a file, or empties it: the components of its path, and the folder with it. -/
def create (f : Folder) (path : String) : Except FileError (List String × Folder) := do
  let directory ← f.holder path
  if endsInSlash path then throw .isDirectory
  match ← last directory path with
  | .inside located =>
    if f.isDirectory (.inside located) then throw .isDirectory
    return (located, f.put located .empty)
  | .outside => throw .isDirectory

/-- Writes a text at the start of a file, over what is there. -/
def write (f : Folder) (path : List String) (text : String) : Folder :=
  let new := text.toUTF8
  let old := (f.bytes? path).getD .empty
  f.put path (new ++ old.extract new.size old.size)

/-- A folder as a disk. -/
def disk : Disk (StateM Folder) where
  File := List String
  read path := do return (← get).read path
  create path := do
    match (← get).create path with
    | .ok (file, f) => set f; return .ok file
    | .error e => return .error e
  write file text := modify (·.write file text)

end Folder

end Breadboard.Console
