import RamlSchema.Command.Program

/-!
# The program on real files

Takes what a run looks into from the disk into a file tree, runs the program on the tree, and writes
to the disk what the run has put there.
-/

namespace RamlSchema.Main

open Files (FileTree Location Node Path)

def locationOf (path : String) : Location := (Path.ofText path).parts

def namesIn (location : Location) : IO (Option (List String)) := do
  try
    let directory ← IO.FS.realPath (Location.text location)
    pure (some ((← directory.readDir).toList.map (·.fileName)))
  catch _ => pure none

/-- Whether a location is reached without following a link. -/
def isOwnPlace (location : Location) : IO Bool := do
  try
    pure ((← IO.FS.realPath (Location.text location)).toString == Location.text location)
  catch _ => pure false

/-- Takes a file into the tree, or a directory with everything below it. Links to directories are
not followed further down. -/
partial def take (tree : FileTree) (location : Location) : IO FileTree := do
  match ← namesIn location with
  | some names =>
    let mut tree := tree.put location .directory
    for name in names do
      let inner := location ++ [name]
      if (← isOwnPlace inner) || (← namesIn inner).isNone then
        tree ← take tree inner
    pure tree
  | none =>
    try
      let bytes ← IO.FS.readBinFile (Location.text location)
      pure (tree.put location (.file bytes.toList))
    catch _ => pure tree

/-- Takes the directories around a location into the tree, as far as they exist. -/
def takeAround (tree : FileTree) (location : Location) : IO FileTree := do
  let mut tree := tree
  for count in List.range location.length do
    if 0 < count then
      let outer := location.take count
      if (← namesIn outer).isSome then tree := tree.put outer .directory
  pure tree

def takeAll (tree : FileTree) (paths : List Path) : IO FileTree := do
  let mut tree := tree
  for path in paths do
    tree ← takeAround tree path.parts
    tree ← take tree path.parts
  pure tree

/-- Writes a file through a temporary one beside it. -/
def store (stamp : String) (location : Location) (bytes : List UInt8) : IO Unit := do
  let name := Files.temporaryName stamp (location.getLast?.getD "")
  let temporary := Location.text (location.dropLast ++ [name])
  IO.FS.writeBinFile temporary ⟨bytes.toArray⟩
  IO.FS.rename temporary (Location.text location)

def storeAll (stamp : String) (nodes : Entries Location Node) : IO Unit := do
  for (location, node) in nodes do
    match node with
    | .directory => IO.FS.createDirAll (Location.text location)
    | .file bytes => store stamp location bytes

def newStamp : IO String := do
  let bytes ← IO.getRandomBytes 4
  pure (.ofList (bytes.toList.flatMap fun byte => Text.Hex.digits 2 byte.toNat))

end RamlSchema.Main

open RamlSchema RamlSchema.Main RamlSchema.Files in
def main (words : List String) : IO UInt32 := do
  let stamp ← newStamp
  let start := FileTree.empty (locationOf (← IO.currentDir).toString)
  let withNamed ← takeAll start (Command.pathsRead words start)
  let before ← takeAll withNamed (Command.pathsRead words withNamed)
  let (outcome, after) := Command.run stamp words before
  storeAll stamp (after.newSince before)
  (← IO.getStdout).putStr outcome.output
  (← IO.getStderr).putStr outcome.errorText
  pure outcome.exitCode.toUInt32
