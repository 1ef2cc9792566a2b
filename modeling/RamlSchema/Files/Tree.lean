import RamlSchema.Entries
import RamlSchema.Files.Path

/-!
# File trees

Directories and files as a map from locations. A location is the list of names from the root, and a
path leads to one by walking through directories that exist.
-/

namespace RamlSchema.Files

abbrev Location := List String

inductive Node where
  | directory
  | file (bytes : List UInt8)
  deriving DecidableEq, Repr

/-- What exists beside the root, and the working directory that relative paths start from. -/
structure FileTree where
  nodes : Entries Location Node := []
  here : Location := []
  deriving DecidableEq

def Location.text (location : Location) : String := "/" ++ Text.joinWith "/" location

namespace FileTree

/-- The longest name of a file, in bytes. -/
def nameLimit : Nat := 255

/-- A tree of nothing but the working directory and the directories around it. -/
def empty (here : Location) : FileTree :=
  ⟨((List.range here.length).map fun n => (here.take (n + 1), .directory)), here⟩

def node? (tree : FileTree) (location : Location) : Option Node :=
  if location.isEmpty then some .directory else tree.nodes.get? location

def walkPart (tree : FileTree) (location : Location) (part : String) : Except Cause Location :=
  match tree.node? location with
  | none => .error .missing
  | some (.file _) => .error .notDirectory
  | some .directory =>
    if part = ".." then .ok location.dropLast
    else if nameLimit < Text.Utf8.size part then .error .nameTooLong
    else .ok (location ++ [part])

/-- The location that a path leads to. The last name need not exist, and a path that is too long
leads nowhere, whatever its parts are. -/
def locate (tree : FileTree) (path : Path) : Except Cause Location :=
  if path.isTooLong then .error .nameTooLong
  else path.parts.foldlM tree.walkPart (if path.isAbsolute then [] else tree.here)

def status (tree : FileTree) (path : Path) : Except Cause (Location × Node) := do
  let location ← tree.locate path
  match tree.node? location with
  | some node => .ok (location, node)
  | none => .error .missing

def isFile (tree : FileTree) (path : Path) : Bool :=
  match tree.status path with
  | .ok (_, .file _) => true
  | _ => false

def isDirectory (tree : FileTree) (path : Path) : Bool :=
  match tree.status path with
  | .ok (_, .directory) => true
  | _ => false

/-- What there is at a path, if there is anything. Where a name is too long, it cannot even be
looked for. -/
def look (tree : FileTree) (path : Path) : Except Fault (Option Node) :=
  if path.hasNull then .ok none
  else
    match tree.status path with
    | .ok (_, node) => .ok (some node)
    | .error .nameTooLong => .error (.system .nameTooLong path.text)
    | .error _ => .ok none

def looksLikeFile (tree : FileTree) (path : Path) : Except Fault Bool :=
  (tree.look path).map fun
    | some (.file _) => true
    | _ => false

/-! ### Reading -/

def readBytes (tree : FileTree) (path : Path) : Except Fault (List UInt8) :=
  if path.hasNull then .error .nullCharacter
  else
    match tree.status path with
    | .ok (_, .file bytes) => .ok bytes
    | .ok (_, .directory) => .error (.system .isDirectory path.text)
    | .error cause => .error (.system cause path.text)

def names (tree : FileTree) (location : Location) : List String :=
  tree.nodes.filterMap fun (l, _) =>
    match location.isPrefixOf? l with
    | some [name] => some name
    | _ => none

def listDirectory (tree : FileTree) (path : Path) : Except Fault (List String) :=
  if path.hasNull then .error .nullCharacter
  else
    match tree.status path with
    | .ok (location, .directory) => .ok (tree.names location)
    | .ok (_, .file _) => .error (.system .notDirectory path.text)
    | .error cause => .error (.system cause path.text)

/-- Everything that lies deeper than a location, by the path from there. -/
def nodesBelow (tree : FileTree) (location : Location) : List (List String × Node) :=
  tree.nodes.filterMap fun (l, node) =>
    match location.isPrefixOf? l with
    | some [] | none => none
    | some rest => some (rest, node)

/-- The first directory among some nodes below a path that is too deep for its names to be read. -/
def firstTooDeep? (path : Path) (nodes : List (List String × Node)) : Option Path :=
  (nodes.filter (·.2 = .directory)).findSome? fun (rest, _) =>
    if (path.within rest).isTooLong then some (path.within rest) else none

/-- Everything below a directory, by the path from there and in the order of these paths. Below
anything else there is nothing. -/
def below (tree : FileTree) (path : Path) : Except Fault (List (List String × Node)) := do
  match ← tree.look path, tree.locate path with
  | some .directory, .ok location =>
    let nodes := (tree.nodesBelow location).mergeSort fun a b => !(b.1 < a.1)
    match firstTooDeep? path nodes with
    | some inner => .error (.system .nameTooLong inner.text)
    | none => .ok nodes
  | _, _ => .ok []

def put (tree : FileTree) (location : Location) (node : Node) : FileTree :=
  { tree with nodes := tree.nodes.put location node }

def newSince (tree old : FileTree) : Entries Location Node :=
  tree.nodes.filter fun (location, node) => old.node? location != some node

/-- The tree without a location and everything below it. -/
def remove (tree : FileTree) (location : Location) : FileTree :=
  { tree with nodes := tree.nodes.filter fun (l, _) => !location.isPrefixOf l }

end FileTree

end RamlSchema.Files
