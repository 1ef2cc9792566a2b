import RamlSchema.Files.Fault
import RamlSchema.Text.Basic
import RamlSchema.Text.Utf8

/-!
# Paths

A path is the names between its slashes. Empty names and single dots are left out, and double dots
stay. Two slashes at the beginning are a root of their own.
-/

namespace RamlSchema.Files

structure Path where
  root : String
  parts : List String
  deriving DecidableEq, Repr

namespace Path

def rootOf (text : String) : String :=
  if Text.startsWith text "//" && !Text.startsWith text "///" then "//"
  else if Text.startsWith text "/" then "/"
  else ""

def ofText (text : String) : Path :=
  ⟨rootOf text, (Text.fields text '/').filter fun part => part != "" && part != "."⟩

def isAbsolute (path : Path) : Bool := !path.root.isEmpty

/-- The path as text, which is empty for the empty path. -/
def bareText (path : Path) : String := path.root ++ Text.joinWith "/" path.parts

/-- The path as text. The empty path is a dot. -/
def text (path : Path) : String :=
  if path.root.isEmpty && path.parts.isEmpty then "." else path.bareText

def within (path : Path) (names : List String) : Path := { path with parts := path.parts ++ names }

/-- A path within another one. An absolute path stands for itself. -/
def join (path other : Path) : Path :=
  if other.isAbsolute then other else path.within other.parts

def child (path : Path) (text : String) : Path := path.join (ofText text)

def parent (path : Path) : Path := { path with parts := path.parts.dropLast }

def name (path : Path) : String := path.parts.getLast?.getD ""

/-- What precedes the last dot of a name, unless the dot is its first or last character. -/
def stemOf (name : String) : String :=
  let ending := name.toList.reverse.takeWhile (· != '.')
  let before := name.toList.reverse.drop (ending.length + 1)
  if ending.isEmpty || before.isEmpty then name else .ofList before.reverse

def stem (path : Path) : String := stemOf path.name

/-- The longest path that can be handed to the system, in bytes. -/
def limit : Nat := 4095

def isTooLong (path : Path) : Bool := limit < Text.Utf8.size path.text

/-- Whether a path is spelled with a character that no file system allows. -/
def hasNull (path : Path) : Bool := path.parts.any (·.toList.contains (Char.ofNat 0))

/-- The parts of a path behind those of `root`, unless it is spelled otherwise. -/
def partsBelow (path root : Path) : Except Fault (List String) :=
  match if path.root = root.root then root.parts.isPrefixOf? path.parts else none with
  | some rest => .ok rest
  | none => .error (.notBelow path.text root.bareText)

def sorted (paths : List Path) : List Path :=
  paths.mergeSort fun a b => !(b.parts < a.parts)

/-- A path spelled from the root, without double dots. -/
def absolute (here : List String) (path : Path) : Path :=
  let start := if path.isAbsolute then [] else here
  let step (parts : List String) (part : String) :=
    if part = ".." then parts.dropLast else parts ++ [part]
  ⟨"/", path.parts.foldl step start⟩

end Path

end RamlSchema.Files
