/-!
What stands in a file tree: files with their content, directories, and links, each with a number,
rights and a time. Names whose items have one number stand for the same file. Failures are causes,
not texts.
-/
namespace PatchSearch

inductive FileError where
  | notFound
  | permissionDenied
  | alreadyExists
  | notADirectory
  | isADirectory
  | notEmpty
  | nameTooLong
  | tooManyLinks
  | invalidTarget
  | notRunnable
  | notText
  | badData
  | badName
  | badArgument
  deriving DecidableEq, Repr

namespace FileError

/-- The name of the error. -/
def kind : FileError → String
  | notFound => "NotFound"
  | permissionDenied => "PermissionDenied"
  | alreadyExists => "AlreadyExists"
  | notADirectory => "NotADirectory"
  | isADirectory => "IsADirectory"
  | notEmpty => "DirectoryNotEmpty"
  | nameTooLong => "InvalidFilename"
  | tooManyLinks => "FilesystemLoop"
  | invalidTarget => "InvalidInput"
  | notRunnable => "Uncategorized"
  | notText => "InvalidData"
  | badData => "InvalidData"
  | badName => "InvalidInput"
  | badArgument => "InvalidInput"

/-- The cause in words. -/
def message : FileError → String
  | notFound => "No such file or directory (os error 2)"
  | permissionDenied => "Permission denied (os error 13)"
  | alreadyExists => "File exists (os error 17)"
  | notADirectory => "Not a directory (os error 20)"
  | isADirectory => "Is a directory (os error 21)"
  | notEmpty => "Directory not empty (os error 39)"
  | nameTooLong => "File name too long (os error 36)"
  | tooManyLinks => "Too many levels of symbolic links (os error 40)"
  | invalidTarget => "Invalid argument (os error 22)"
  | notRunnable => "Exec format error (os error 8)"
  | notText => "stream did not contain valid UTF-8"
  | badData => "malformed document"
  | badName => "file name contained an unexpected NUL byte"
  | badArgument => "nul byte found in provided data"

end FileError

/-- What stands under a name. -/
inductive Entry where
  | file (content : ByteArray)
  | directory
  /-- A link that stands for another path. -/
  | link (target : String)

namespace Entry

def isFile : Entry → Bool
  | file _ => true
  | _ => false

def isDirectory : Entry → Bool
  | directory => true
  | _ => false

end Entry

/-- Rights that some bits take away, and the others of them. -/
def clearBits (rights bits : Nat) : Nat :=
  rights - (rights &&& bits)

/-- An entry with what is known about it. -/
structure Item where
  entry : Entry
  /-- Names with the same number stand for one file. -/
  number : Nat
  /-- Who may read, write and run it: three bits each for its owner, its group and all others, and
  three more above those. -/
  rights : Nat
  /-- When it was changed last, in nanoseconds. -/
  changed : Nat

namespace Item

/-- Whether anyone may run a file. -/
def isRunnable (x : Item) : Bool :=
  x.rights &&& 73 != 0

/-- The rights that something new has, of which a mask takes some away. -/
def newRights (mask : Nat) : Entry → Nat
  | .file _ => clearBits 438 mask
  | .directory => clearBits 511 mask
  | .link _ => 511

end Item

end PatchSearch
