import RamlSchema.References.Schema
import RamlSchema.Text.Blank
import RamlSchema.Text.Case

/-!
# Reference index

The names under which schemas can be found, and the search for the schema that a reference means. It
goes from the declared name over the name in the reference to the reference itself, and last it
takes a name that differs in letter case only.
-/

namespace RamlSchema.References

/-- The identifier of a schema by each of its names. A name belongs to the first schema that has
it. -/
abbrev Index := Entries String String

/-- The names of a schema, each once: its name and its path, with and without their endings. -/
def LoadedSchema.keys (schema : LoadedSchema) : List String :=
  let base := Text.afterLast schema.relativePath '/'
  ([schema.name, schema.relativePath, Text.stripSuffix base jsonEnding,
    Text.stripSuffix schema.name ".schema", Text.stripSuffix schema.relativePath schemaEnding,
    Text.stripSuffix base schemaEnding].filter (!·.isEmpty)).eraseDups

def Index.add (index : Index) (schema : LoadedSchema) : Index :=
  schema.keys.foldl (fun index key => index.putNew key schema.id) index

def Index.ofSchemas (schemas : List LoadedSchema) : Index := schemas.foldl Index.add []

/-! ### The name in a reference -/

def isFileChar (c : Char) : Bool := c != '/' && c != '#' && !Text.isBlank c

/-- What precedes the last `.json` in a run of characters, unless that is empty. -/
def jsonFile? (run : List Char) : Option (List Char) :=
  match Text.cutChars? jsonEnding.toList.reverse run.reverse with
  | some (_, before) => if before.isEmpty then none else some before.reverse
  | none => none

def fileRuns (cs : List Char) : List (List Char) :=
  (cs.splitOnP (!isFileChar ·)).filter (!·.isEmpty)

def firstFile? (reference : String) : Option String :=
  ((fileRuns reference.toList).findSome? jsonFile?).map .ofList

/-- The name that a reference itself suggests. -/
def baseName (reference : String) : String :=
  if Text.startsWith reference "#/" then Text.afterLast reference '/'
  else if Text.contains reference schemaEnding then
    Text.stripSuffix (Text.afterLast (filePart reference) '/') schemaEnding
  else
    match firstFile? reference with
    | some name => name
    | none => Text.afterLast (Text.dropEndWhile reference (· == '/')) '/'

/-! ### The search -/

/-- The reference without a leading `./` and without the ending of a schema file. -/
def strippedReference (reference : String) : String :=
  Text.stripSuffix ((Text.dropPrefix? reference "./").getD reference) schemaEnding

/-- The first name that is one of the candidates but for letter case. -/
def Index.findIgnoringCase (index : Index) (candidates : List String) : Option String :=
  let wanted := (candidates.filter (!·.isEmpty)).map Text.Case.lower
  (index.find? fun (key, _) => wanted.contains (Text.Case.lower key)).map Prod.snd

def Index.search (index : Index) (reference : Reference) : Option String :=
  (index.get? reference.name).or <|
    (index.get? (baseName reference.text)).or <|
      (index.get? (strippedReference reference.text)).or <|
        index.findIgnoringCase [reference.name, baseName reference.text]

end RamlSchema.References
