import RamlSchema.Conversion.Fault
import RamlSchema.Files.Tree
import RamlSchema.Raml.Source
import RamlSchema.Settings.Use

/-!
# Source files of a directory

Which files of an input directory are sources, and the types of one of them. The files at the top
come before those in the directory of enums, both in the order of their names, and only files at the
top can be excluded.
-/

namespace RamlSchema.Conversion

open Files (FileTree Path)
open Raml (Parsed)

def ofSetting {α : Type} (result : Except SettingFault α) : Except Fault α :=
  result.mapError .setting

def ofFiles {α : Type} (result : Except Files.Fault α) : Except Fault α :=
  result.mapError .files

/-- The files in a directory whose names have the ending of source files. The ending is looked at
only if there is a file. -/
def filesWithEnding (settings : Settings) (tree : FileTree) (directory : Path) :
    Except Fault (List Path) := do
  let names ← ofFiles (tree.listDirectory directory)
  let files ← ofFiles ((names.map directory.child).filterM tree.looksLikeFile)
  if files.isEmpty then .ok []
  else
    let ending ← ofSetting settings.ending
    .ok (files.filter fun path => Text.endsWith path.name ending)

def discover (settings : Settings) (tree : FileTree) (directory : Path) :
    Except Fault (List Path) := do
  let settings ← ofSetting settings.inUse
  let excluded ← ofSetting settings.excludedNames
  let top ← filesWithEnding settings tree directory
  let enumPath ← ofSetting settings.enumPath
  let enumDirectory := directory.child enumPath
  let enums ←
    match ← ofFiles (tree.look enumDirectory) with
    | some .directory => filesWithEnding settings tree enumDirectory
    | _ => .ok []
  .ok (Path.sorted (top.filter fun path => !excluded.contains path.name) ++ Path.sorted enums)

structure SourceFile where
  size : Nat
  content : String
  parsed : Parsed

/-- Why the bytes of a source file are out of reach. A path that names no file at all is no fault of
a source file. -/
def unreadable (path : Path) (fault : Files.Fault) : Fault :=
  match fault with
  | .nullCharacter => .files fault
  | _ => .source (.unreadable path.text fault.message)

/-- Reads a source file. References are written in the given convention. -/
def readSource (convention : Convention) (tree : FileTree) (path : Path) :
    Except Fault SourceFile := do
  let bytes ← (tree.readBytes path).mapError (unreadable path)
  let content ← (Text.Utf8.decode bytes).mapError fun fault =>
    .source (.unreadable path.text fault.message)
  let parsed ← (Raml.Source.parse convention content path.stem (some path.text)).mapError .source
  .ok { size := bytes.length, content, parsed }

end RamlSchema.Conversion
