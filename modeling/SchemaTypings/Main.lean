import SchemaTypings.CommandLine.Run

/-!
The program on a disk: it reads what a run can see, lets the run do its work, and writes what came
to be or was changed.
-/

namespace SchemaTypings

namespace Disk

/-- The directories that are not read below the current one. -/
def skipped : List String := ["node_modules", ".git"]

/-- The cells of a line on the terminal. -/
def consoleWidth : Nat := 80

/-- The place of a path from the root. -/
def placeOf (path : String) : Place := PathName.partsOf path

/-- The path of a place from the root. -/
def pathOf (place : Place) : String := "/" ++ (Text.join "/" place).toString

/-- The tree with the directories above a place. -/
def withAbove (tree : FileTree) (place : Place) : FileTree :=
  ((List.range place.length).drop 1).foldl
    (fun (t : FileTree) (n : Nat) =>
      if (t.node? (place.take n)).isSome then t else t.set (place.take n) .directory) tree

/-- The tree with what is at a place and below it. -/
partial def readBelow (tree : FileTree) (place : Place) : IO FileTree := do
  let here := (← IO.currentDir) / pathOf place
  if ← here.isDir then
    let mut tree := if place.isEmpty then tree else tree.set place .directory
    for entry in ← here.readDir do
      if !skipped.contains entry.fileName then
        tree ← readBelow tree (place ++ [(entry.fileName : Text)])
    return tree
  else if ← here.pathExists then
    return tree.set place (.file (← IO.FS.readBinFile here).toList)
  else return tree

/-- Writes what differs between two trees. -/
def writeBack (before after : FileTree) : IO Unit := do
  for (place, node) in after.nodes do
    if before.node? place ≠ some node then
      match node with
      | .directory => IO.FS.createDirAll (pathOf place)
      | .file bytes => IO.FS.writeBinFile (pathOf place) ⟨bytes.toArray⟩

/-- The paths that options name. -/
def pathsOf (o : CommandLine.Options) : List Text :=
  [o.source, o.sourceSwitch, o.output, o.settingsFile, o.logFile].filterMap id

/-- The tree that a run with the arguments can see. -/
def treeFor (arguments : List Text) : IO FileTree := do
  let home := placeOf (← IO.currentDir).toString
  let named := match CommandLine.Request.ofArguments arguments with
    | .run o => pathsOf o
    | _ => []
  let start : FileTree := { withAbove FileTree.empty home with home }
  let mut tree ← readBelow start home
  for name in named do
    let place := (tree.absolute (PathName.ofText name)).parts
    if !(home.isPrefixOf place) then
      tree ← readBelow (withAbove tree place) place
  return tree

end Disk

end SchemaTypings

open SchemaTypings in
/-- Runs the program on the disk and ends with its exit code. -/
def main (arguments : List String) : IO UInt32 := do
  let arguments := arguments.map Text.ofString
  let tree ← Disk.treeFor arguments
  let finish := CommandLine.run arguments tree
  for thing in finish.session.printed do
    for line in thing.lines Disk.consoleWidth do
      IO.println line.toString
  for line in finish.session.complaints do
    IO.eprintln line.toString
  Disk.writeBack tree finish.session.tree
  match finish.exit with
  | .ok code => return code.toUInt32
  | .error e =>
    IO.eprintln ((e.message?.getD "the run failed").toString)
    return 1
