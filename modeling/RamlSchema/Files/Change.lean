import RamlSchema.Files.Tree

/-!
# Changes to files

Creating directories and writing files. An operation that fails keeps what it did before, so that a
failed write may leave new directories behind, but no file.
-/

namespace RamlSchema.Files

open FileTree

/-- An operation that may change the tree and may fail. -/
abbrev Action (ε α : Type) := EStateM ε FileTree α

def fail {α : Type} (cause : Cause) (path : Path) : Action Fault α :=
  throw (.system cause path.text)

/-- Why a single directory cannot be created at a path, or the location where it can. -/
def FileTree.vacancy (tree : FileTree) (path : Path) : Except Cause Location :=
  match tree.locate path with
  | .error cause => .error cause
  | .ok location => if (tree.node? location).isSome then .error .exists else .ok location

/-- Creates a directory unless it is there. Its parent has to exist. -/
def ensureDirectory (path : Path) : Action Fault Unit := do
  let tree ← get
  match tree.vacancy path with
  | .ok location => set (tree.put location .directory)
  | .error cause => if tree.isDirectory path then pure () else fail cause path

/-- Creates the directory that the first `count` parts of a path lead to, and before it those around
it that are missing. -/
def ensureDirectoriesTo (path : Path) : (count : Nat) → Action Fault Unit
  | 0 => ensureDirectory { path with parts := [] }
  | count + 1 => do
    let target : Path := { path with parts := path.parts.take (count + 1) }
    if path.hasNull then throw .nullCharacter
    match (← get).vacancy target with
    | .error .missing =>
      ensureDirectoriesTo path count
      ensureDirectory target
    | _ => ensureDirectory target

/-- Creates a directory and the directories around it, as far as they are missing. -/
def ensureDirectories (path : Path) : Action Fault Unit :=
  ensureDirectoriesTo path path.parts.length

/-- The location of a file that is about to be written, which may exist already. -/
def fileLocation (path : Path) : Action Fault Location := do
  if path.hasNull then throw .nullCharacter
  let tree ← get
  match tree.locate path with
  | .error cause => fail cause path
  | .ok location =>
    if tree.node? location = some .directory then fail .isDirectory path else pure location

def writeDirectly (path : Path) (bytes : List UInt8) : Action Fault Unit := do
  let location ← fileLocation path
  modify (·.put location (.file bytes))

def FileTree.moveFault? (tree : FileTree) (path : Path) : Option Cause :=
  if path.isTooLong then some .nameTooLong
  else if path.parts.isEmpty || path.name == ".." then some .busy
  else
    match tree.locate path with
    | .error cause => some cause
    | .ok location => if tree.node? location = some .directory then some .isDirectory else none

def temporaryName (stamp name : String) : String := "." ++ name ++ "." ++ stamp ++ ".tmp"

/-- Creates an empty file in a directory that exists. Whatever has the name already is left as it
is. -/
def createIn (directory : Location) (name : String) : Action Fault Location := do
  let location := directory ++ [name]
  if name.toList.contains (Char.ofNat 0) then throw .nullCharacter
  if nameLimit < Text.Utf8.size name || Path.limit < Text.Utf8.size (Location.text location) then
    throw (.system .nameTooLong (Location.text location))
  if ((← get).node? location).isSome then
    throw (.system .exists (Location.text location))
  modify (·.put location (.file []))
  pure location

/-- Moves a file to a path, in place of the file that is there. -/
def moveTo (source : Location) (bytes : List UInt8) (path : Path) : Action Fault Unit := do
  let tree ← get
  match tree.moveFault? path, tree.locate path with
  | none, .ok location => set ((tree.remove source).put location (.file bytes))
  | some cause, _ => throw (.system cause (Location.text source) (some path.text))
  | none, .error cause => throw (.system cause (Location.text source) (some path.text))

/-- Writes a file through a temporary one beside it, so that the file either keeps its content or
has all of the new one. If the last step fails, the temporary file is taken away again. -/
def writeAtomically (stamp : String) (path : Path) (bytes : List UInt8) : Action Fault Unit := do
  match (← get).status path.parent with
  | .error cause => fail cause path.parent
  | .ok (directory, _) =>
    let temporary ← createIn directory (temporaryName stamp path.name)
    modify (·.put temporary (.file bytes))
    tryCatch (moveTo temporary bytes path) fun fault => do
      modify (·.remove temporary)
      throw fault

end RamlSchema.Files
