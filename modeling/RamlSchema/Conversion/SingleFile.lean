import RamlSchema.Conversion.Sources
import RamlSchema.Conversion.Writer

/-!
# Conversion of a single file

All types of one source file in one document. A single type is the document itself, and several are
its definitions under their names.
-/

namespace RamlSchema.Conversion

open Files (FileTree Path)

structure SingleResult where
  input : String
  output : String
  document : Option Json := none
  error : Option String := none

/-- The schemas under the names of their types. A type without a name is left out, and the last of
several types with one name stays. -/
def definitions (dialect : Json) (types : List Raml.Declaration) : Entries String Json :=
  Entries.ofList ((types.filter fun type => !type.name.isEmpty).map fun type =>
    (type.name, Schema.document dialect type))

def documentOf? (dialect : Json) (stem : String) (types : List Raml.Declaration) : Option Json :=
  match types with
  | [] => none
  | [type] => some (Schema.document dialect type)
  | types =>
    some (.obj [("$schema", dialect), ("title", .str stem), ("type", .str "object"),
      ("properties", .obj []), ("definitions", .obj (definitions dialect types))])

/-- Converts a file into a document in a directory. Failures are part of the result, once the
settings can be used. -/
def convertFile (settings : Settings) (stamp : String) (source directory : Path) :
    Action SingleResult := do
  let settings ← MonadExcept.ofExcept (ofSetting settings.inUse)
  let failed (error : String) : SingleResult :=
    { input := source.text, output := directory.text, error := some error }
  match readSource settings.convention (← get) source with
  | .error fault => pure (failed fault.message)
  | .ok file =>
    match documentOf? settings.dialect source.stem file.parsed.types with
    | none => pure (failed "No types found in RAML file")
    | some document =>
      let path := directory.child (settings.convention.apply source.stem ++ ".json")
      tryCatch
        (do
          let _ ← (Writer.mk settings.output stamp).write path document true
          pure { input := source.text, output := path.text, document := some document })
        fun fault => pure (failed fault.message)

end RamlSchema.Conversion
