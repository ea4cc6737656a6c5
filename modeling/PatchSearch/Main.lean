import PatchSearch.CommandLine

/-!
The program. It reads the files around the working directory and the manifest into a file tree,
makes the call on that tree, writes back what the call changed, and passes its outputs and its
status on.
-/
namespace PatchSearch

/-- Reads a directory with everything below it into a tree. -/
def readTree (path : String) (t : FileTree) : IO FileTree := do
  let enter (names : List String) (t : FileTree) : FileTree := (t.makeDirs
    (FileTree.positionText names)).2
  let mut tree := enter (pathNames path) t
  for found in ← (← IO.FS.realPath path).walkDir do
    let names := pathNames found.toString
    if ← found.isDir then tree := enter names tree
    else
      let content ← IO.FS.readBinFile found
      tree := (enter names.dropLast tree).putContent names content
  return tree

/-- Whether a position holds the same file in a tree. -/
def isUnchanged (t : FileTree) (p : Position) (content : ByteArray) : Bool :=
  match t.entry? p with
  | some (.file old) => old == content
  | _ => false

/-- Writes the entries of a tree that another tree does not have. -/
def writeChanges (before after : FileTree) : IO Unit := do
  for (p, x) in after.items do
    let path := FileTree.positionText p
    match x.entry with
    | .directory => if !before.isDirectoryAt p then IO.FS.createDirAll path
    | .file content =>
      if !isUnchanged before p content then IO.FS.writeBinFile path content
    | .link _ => pure ()

end PatchSearch

open PatchSearch in
def main (args : List String) : IO UInt32 := do
  let here := (← IO.currentDir).toString
  let start := { (← readTree here FileTree.empty) with here := pathNames here }
  let base := joinPath here ((args.head?.bind parentPath).getD "")
  let files ← if start.isDirectory base || args.isEmpty then pure start
    else try readTree base start catch _ => pure start
  let entropy := (← IO.getRandomBytes 8).toList.foldl (fun n b => n * 256 + b.toUInt64) 0
  let result := CommandLine.call (← IO.appPath).toString args entropy { files }
  writeChanges files result.host.files
  IO.print result.host.printed
  IO.eprint result.complaint
  return UInt32.ofNat result.status
