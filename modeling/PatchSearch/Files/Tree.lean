import PatchSearch.Files.Entry

/-!
Paths as texts. A path is a sequence of names set apart by slashes and starts at the root when
its first character is one. `joinPath` takes a path from a base, and `parentPath` is the part
before the last name.
-/
namespace PatchSearch

/-- Whether a path starts at the root. -/
def isAbsolutePath (path : String) : Bool :=
  path.toList.head? == some '/'

/-- A path taken from a base: an absolute one stands for itself, and a separator is put between
the two unless the base is empty or ends in one. -/
def joinPath (base path : String) : String :=
  if isAbsolutePath path then path
  else if base.isEmpty || base.toList.getLast? == some '/' then base ++ path
  else base ++ "/" ++ path

theorem joinPath_of_isAbsolutePath (base path : String) (h : isAbsolutePath path = true) :
    joinPath base path = path := by
  simp [joinPath, h]

/-- The parts of a text between slashes. -/
def slashParts (pending : List Char) : List Char → List String
  | [] => [String.ofList pending.reverse]
  | c :: cs =>
    if c = '/' then String.ofList pending.reverse :: slashParts [] cs
    else slashParts (c :: pending) cs

/-- The steps of a path from where it starts: its names, and the dots that stay in a directory or
lead out of it. -/
def pathSteps (path : String) : List String :=
  (slashParts [] path.toList).filter (· != "")

/-- The names of a path. A name that stands for the directory itself is left out. -/
def pathNames (path : String) : List String :=
  (pathSteps path).filter (· != ".")

/-- Whether a path ends in a separator and so can only mean a directory. -/
def endsInSlash (path : String) : Bool :=
  path.toList.getLast? == some '/'

/-- Drops the separators, and the names for the directory itself, at the end of a reversed
path. -/
def dropEnd : List Char → List Char
  | '/' :: cs => dropEnd cs
  | '.' :: '/' :: cs => dropEnd ('/' :: cs)
  | cs => cs

/-- The path without its last name, if it has one. -/
def parentPath (path : String) : Option String :=
  match dropEnd path.toList.reverse with
  | [] => none
  | rest =>
    let above := rest.dropWhile (· != '/')
    let kept := dropEnd above
    some (if kept.isEmpty && !above.isEmpty then "/" else String.ofList kept.reverse)

/-- A path and the paths above it, nearest first. Each is shorter than the one before, so the
length of the first bounds their number. -/
def pathsAbove : Nat → String → List String
  | 0, _ => []
  | n + 1, path =>
    path :: match parentPath path with
      | some above => pathsAbove n above
      | none => []

/-- A path with all paths above it, nearest first. -/
def ancestorPaths (path : String) : List String :=
  pathsAbove (path.length + 1) path

/-- The last name of a path. -/
def baseName (path : String) : Option String :=
  (pathNames path).getLast?

end PatchSearch

/-!
File trees: directories, files and links by their names from the root, and a working directory
that relative paths start in. Operations resolve a path step by step; every step before the last
has to lead to a directory that exists, `..` leads one level up, a link leads where its target
leads, and a path that ends in a separator means a directory. What is put into a directory, or
taken from it, changes the directory. A file without a name is kept, since it may be open.
-/
namespace PatchSearch

/-- Names from the root down. -/
abbrev Position := List String

structure FileTree where
  items : List (Position × Item)
  here : Position
  /-- The rights that nothing new gets. -/
  mask : Nat := 18
  /-- The time in nanoseconds. -/
  now : Nat := 0
  /-- The number of the next item that is made. -/
  nextNumber : Nat := 1
  /-- Files that have lost their names. -/
  nameless : List Item := []

namespace FileTree

/-- The tree with nothing but its root. -/
def empty : FileTree :=
  { items := [], here := [] }

/-- The directory that everything stands in. -/
def root : Item :=
  ⟨.directory, 0, 493, 0⟩

/-- The item at a position. -/
def item? (t : FileTree) (p : Position) : Option Item :=
  if p.isEmpty then some root else t.items.lookup p

/-- What stands at a position. The root is always a directory. -/
def entry? (t : FileTree) (p : Position) : Option Entry :=
  (t.item? p).map Item.entry

/-- The item of a number, which may have lost its name. -/
def numbered? (t : FileTree) (number : Nat) : Option Item :=
  if number = 0 then some root
  else ((t.items.find? (·.2.number == number)).map Prod.snd).or
    (t.nameless.find? (·.number == number))

def isDirectoryAt (t : FileTree) (p : Position) : Bool :=
  match t.entry? p with
  | some .directory => true
  | _ => false

/-- Changes the items of a number. -/
def change (t : FileTree) (number : Nat) (f : Item → Item) : FileTree :=
  { t with
    items := t.items.map fun x => if x.2.number == number then (x.1, f x.2) else x
    nameless := t.nameless.map fun x => if x.number == number then f x else x }

/-- Changes the item at a position, under all its names. -/
def changeAt (t : FileTree) (p : Position) (f : Item → Item) : FileTree :=
  match t.item? p with
  | some x => t.change x.number f
  | none => t

/-- Notes that what stands at a position has just changed. -/
def note (t : FileTree) (p : Position) : FileTree :=
  t.changeAt p fun x => { x with changed := t.now }

/-- Keeps those of some files that have lost their last name. -/
def keep (t : FileTree) (files : List Item) : FileTree :=
  let lost := files.filter fun x =>
    x.entry.isFile && !t.items.any fun y => y.2.number == x.number
  { t with nameless := lost ++ t.nameless }

/-- Puts an item at a position, in place of an earlier one. -/
def place (t : FileTree) (p : Position) (x : Item) : FileTree :=
  let old := (t.items.lookup p).toList
  ({ t with items := (p, x) :: t.items.filter (·.1 != p) }.keep old).note p.dropLast

/-- Puts a new entry at a position, in place of an earlier one. -/
def put (t : FileTree) (p : Position) (e : Entry) : FileTree :=
  { t with nextNumber := t.nextNumber + 1 }.place p ⟨e, t.nextNumber, Item.newRights t.mask e, t.now⟩

/-- Gives content to the file of a number. -/
def fill (t : FileTree) (number : Nat) (content : ByteArray) : FileTree :=
  t.change number fun x => { x with entry := .file content, changed := t.now }

/-- Puts content at a position: into the file that stands there, or else into a new one. -/
def putContent (t : FileTree) (p : Position) (content : ByteArray) : FileTree :=
  match t.item? p with
  | some ⟨.file _, number, _, _⟩ => t.fill number content
  | _ => t.put p (.file content)

/-- Takes away a position and everything below it. -/
def remove (t : FileTree) (p : Position) : FileTree :=
  let (gone, kept) := t.items.partition fun x => p.isPrefixOf x.1
  ({ t with items := kept }.keep (gone.map Prod.snd)).note p.dropLast

/-- Moves a position with everything below it to another one, in place of what stands there. -/
def move (t : FileTree) (origin goal : Position) : FileTree :=
  let (moved, others) := t.items.partition fun x => origin.isPrefixOf x.1
  let (gone, kept) := others.partition fun x => goal.isPrefixOf x.1
  let placed := moved.map fun x => (goal ++ x.1.drop origin.length, x.2)
  (({ t with items := placed ++ kept }.keep (gone.map Prod.snd)).note origin.dropLast).note
    goal.dropLast

/-- The names directly below a position, ascending. -/
def namesBelow (t : FileTree) (p : Position) : List String :=
  (t.items.filterMap fun x =>
    if x.1.length = p.length + 1 && p.isPrefixOf x.1 then x.1.getLast? else none).mergeSort
      fun a b => decide (a ≤ b)

/-- Where a path starts that is taken from a position. -/
def startFrom (p : Position) (path : String) : Position :=
  if isAbsolutePath path then [] else p

/-- Where one step leads from a directory. -/
def stepFrom (p : Position) (name : String) : Position :=
  if name = "." then p else if name = ".." then p.dropLast else p ++ [name]

/-- The position that steps lead to from a directory; the last one need not exist. A link in last
place is followed only if `through` says so, and `jump` takes over behind a link. -/
def followSteps (t : FileTree) (through : Bool)
    (jump : Position → List String → Except FileError Position) :
    Position → List String → Except FileError Position
  | p, [] => .ok p
  | p, name :: rest =>
    if 255 < name.utf8ByteSize then .error .nameTooLong
    else
      match t.entry? (stepFrom p name) with
      | some .directory => t.followSteps through jump (stepFrom p name) rest
      | some (.link target) =>
        if rest.isEmpty && !through then .ok (stepFrom p name)
        else jump (startFrom p target) (pathSteps target ++ rest)
      | some (.file _) =>
        if rest.isEmpty then .ok (stepFrom p name) else .error .notADirectory
      | none => if rest.isEmpty then .ok (stepFrom p name) else .error .notFound

/-- Follows steps through at most so many links. -/
def followLinks (t : FileTree) (through : Bool) :
    Nat → Position → List String → Except FileError Position
  | 0 => t.followSteps through fun _ _ => .error .tooManyLinks
  | n + 1 => t.followSteps through (t.followLinks through n)

/-- The most links on the way of a path. -/
def maxLinks : Nat := 40

/-- The most bytes in a path. -/
def maxPathSize : Nat := 4095

/-- The position of a path, whose last name may be a link that is followed or left alone. -/
def resolve (t : FileTree) (through : Bool) (path : String) : Except FileError Position :=
  if path.isEmpty then .error .notFound
  else if path.toList.contains '\x00' then .error .badName
  else if maxPathSize < path.utf8ByteSize then .error .nameTooLong
  else t.followLinks (through || endsInSlash path) maxLinks (startFrom t.here path) (pathSteps path)

/-- The position of a path. -/
def locate (t : FileTree) (path : String) : Except FileError Position :=
  t.resolve true path

/-- What stands at a position that a path leads to. -/
def at? (t : FileTree) (path : String) (p : Position) : Except FileError (Position × Entry) :=
  match t.entry? p with
  | none => .error .notFound
  | some .directory => .ok (p, .directory)
  | some e => if endsInSlash path then .error .notADirectory else .ok (p, e)

/-- What stands at a path. -/
def find (t : FileTree) (path : String) : Except FileError (Position × Entry) := do
  t.at? path (← t.locate path)

/-- What stands at a path, which may be a link. -/
def findLink (t : FileTree) (path : String) : Except FileError (Position × Entry) := do
  t.at? path (← t.resolve false path)

/-- The item at a path. -/
def findItem (t : FileTree) (path : String) : Except FileError (Position × Item) := do
  let (p, _) ← t.find path
  match t.item? p with
  | some x => return (p, x)
  | none => throw .notFound

/-- The item at a path, which may be a link. -/
def findLinkItem (t : FileTree) (path : String) : Except FileError (Position × Item) := do
  let (p, _) ← t.findLink path
  match t.item? p with
  | some x => return (p, x)
  | none => throw .notFound

def isDirectory (t : FileTree) (path : String) : Bool :=
  match t.find path with
  | .ok (_, .directory) => true
  | _ => false

def isFile (t : FileTree) (path : String) : Bool :=
  match t.find path with
  | .ok (_, .file _) => true
  | _ => false

def read (t : FileTree) (path : String) : Except FileError ByteArray := do
  match ← t.find path with
  | (_, .file content) => .ok content
  | (_, .directory) => .error .isADirectory
  | (_, .link _) => .error .tooManyLinks

/-- Writes a whole file, which is made if it does not exist. -/
def write (t : FileTree) (path : String) (content : ByteArray) : Except FileError FileTree := do
  let p ← t.locate path
  if endsInSlash path then .error .isADirectory
  else
    match t.entry? p with
    | some .directory => .error .isADirectory
    | some (.link _) => .error .tooManyLinks
    | some (.file _) => .ok (t.putContent p content)
    | none => if t.isDirectoryAt p.dropLast then .ok (t.putContent p content) else .error .notFound

/-- Makes the directory at a path; all directories above it have to exist. -/
def makeDir (t : FileTree) (path : String) : Except FileError FileTree := do
  let p ← t.resolve false path
  match t.entry? p with
  | some _ => .error .alreadyExists
  | none => if t.isDirectoryAt p.dropLast then .ok (t.put p .directory) else .error .notFound

/-- Makes the first of some directories, each of which stands in the one after it. A directory
that is missing above is made first; a failure leaves the directories that were made before it. -/
def makeDirsAlong : List String → FileTree → Except FileError Unit × FileTree
  | [], t => (.ok (), t)
  | path :: above, t =>
    if path.isEmpty then (.ok (), t)
    else
      match t.makeDir path with
      | .ok t => (.ok (), t)
      | .error .notFound =>
        match makeDirsAlong above t with
        | (.error e, t) => (.error e, t)
        | (.ok (), t) =>
          match t.makeDir path with
          | .ok t => (.ok (), t)
          | .error e => if t.isDirectory path then (.ok (), t) else (.error e, t)
      | .error e => if t.isDirectory path then (.ok (), t) else (.error e, t)

/-- Makes the directory at a path with all directories above it. -/
def makeDirs (t : FileTree) (path : String) : Except FileError Unit × FileTree :=
  makeDirsAlong (ancestorPaths path) t

/-- The names in a directory, ascending. -/
def list (t : FileTree) (path : String) : Except FileError (List String) := do
  match ← t.find path with
  | (p, .directory) => .ok (t.namesBelow p)
  | _ => .error .notADirectory

/-- The files below a position, with their names from there. A link to a directory counts as a
directory, any other as a file, which is empty if the link leads nowhere; `depth` bounds how many
links to directories lie on the way. -/
def filesUnder (t : FileTree) : Nat → Position → List (Position × ByteArray)
  | 0, _ => []
  | depth + 1, p =>
    t.items.flatMap fun x =>
      if p.isPrefixOf x.1 && p.length < x.1.length then
        let names := x.1.drop p.length
        match x.2.entry with
        | .file content => [(names, content)]
        | .directory => []
        | .link target =>
          match t.followLinks true maxLinks (startFrom x.1.dropLast target) (pathSteps target) with
          | .error _ => [(names, .empty)]
          | .ok q =>
            match t.entry? q with
            | some (.file content) => [(names, content)]
            | some .directory => (t.filesUnder depth q).map fun f => (names ++ f.1, f.2)
            | _ => [(names, .empty)]
      else []

/-- The files below a position, with their names from there. -/
def filesBelow (t : FileTree) (p : Position) : List (Position × ByteArray) :=
  t.filesUnder 4 p

/-- The text of a position. -/
def positionText (p : Position) : String :=
  match p with
  | [] => "/"
  | _ => String.join (p.map ("/" ++ ·))

end FileTree

end PatchSearch
