import RamlSchema.Files.Path
import RamlSchema.Json.Basic
import RamlSchema.Text.Base64
import RamlSchema.Text.Utf8

/-!
# Loaded schemas

Schema documents by the path that they were loaded from, with the references that each holds.
-/

namespace RamlSchema.References

open Files (Path)

/-- A reference as a document writes it, and the name of the schema that it seems to mean. -/
structure Reference where
  text : String
  name : String
  deriving DecidableEq, Repr

/-- A schema document. `referencedBy` are the schemas with a reference to it, each once. -/
structure LoadedSchema where
  id : String
  name : String
  relativePath : String
  references : List Reference := []
  referencedBy : List String := []
  deriving DecidableEq, Repr

def schemaEnding : String := ".schema.json"

def jsonEnding : String := ".json"

/-- The identifier of a path: its bytes in base 64, of which only letters and digits are kept. -/
def schemaId (path : String) : String :=
  .ofList ((Text.Base64.encode (Text.Utf8.encode path)).filter Char.isAlphanum)

/-! ### References of a document -/

def ownReference (members : List (String × Json)) : List String :=
  match Entries.get? members "$ref" with
  | some (.str text) => [text]
  | _ => []

mutual

/-- The references in a document, in the order in which they stand. The reference of an object
comes before those of its members. -/
def extract : Json → List String
  | .obj members => ownReference members ++ extractMembers members
  | .arr items => extractItems items
  | _ => []

def extractItems : List Json → List String
  | [] => []
  | item :: items => extract item ++ extractItems items

def extractMembers : List (String × Json) → List String
  | [] => []
  | (_, value) :: members => extract value ++ extractMembers members

end

def filePart (reference : String) : String :=
  match Text.cut? reference "#" with
  | some (file, _) => file
  | none => reference

/-- The name of the schema that a reference seems to mean: the file's name without its ending, or
the end of the fragment where no file is named. -/
def declaredName (reference : String) : String :=
  let file := filePart reference
  if file.isEmpty then Text.afterLast reference '/'
  else
    let base := Text.afterLast file '/'
    (Text.dropSuffix? base schemaEnding).getD (Text.stripSuffix base jsonEnding)

def Reference.ofText (text : String) : Reference := ⟨text, declaredName text⟩

/-- The document at the path that goes on from `root` with the parts `rest`. -/
def LoadedSchema.ofDocument (root : Path) (rest : List String) (document : Json) : LoadedSchema :=
  let path : Path := { root with parts := root.parts ++ rest }
  { id := schemaId path.text
    name := Text.stripSuffix path.name jsonEnding
    relativePath := ({ root := "", parts := rest } : Path).text
    references := (extract document).map .ofText }

/-- The document at a path that has to lie below `root`. -/
def LoadedSchema.ofPath (root path : Path) (document : Json) : Except Files.Fault LoadedSchema :=
  (path.partsBelow root).map fun rest => ofDocument root rest document

def Reference.toJson (reference : Reference) : Json :=
  .obj [("$ref", .str reference.text), ("schemaName", .str reference.name)]

def LoadedSchema.toJson (schema : LoadedSchema) : Json :=
  .obj [("id", .str schema.id), ("name", .str schema.name),
    ("relativePath", .str schema.relativePath),
    ("references", .arr (schema.references.map Reference.toJson)),
    ("referencedBy", .texts (Text.sorted schema.referencedBy))]

end RamlSchema.References
