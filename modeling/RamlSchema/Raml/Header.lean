import RamlSchema.Raml.Line
import RamlSchema.Entries

/-!
# File formats and headers

Whether a file declares one type or a library of them, and the title, version and description that
stand at its beginning.
-/

namespace RamlSchema.Raml

inductive SourceFormat where
  | library
  | dataType
  deriving DecidableEq, Repr

namespace SourceFormat

def label : SourceFormat → String
  | .library => "Library"
  | .dataType => "DataType"

def marker : SourceFormat → String
  | .library => "#%RAML 1.0 Library"
  | .dataType => "#%RAML 1.0 DataType"

/-- A file holds a single type if it carries that marker and not the other. -/
def ofContent (content : String) : SourceFormat :=
  if Text.contains content (marker .dataType) && !Text.contains content (marker .library) then
    .dataType
  else .library

end SourceFormat

abbrev Header := Entries String String

namespace Header

def fieldNames : List String := ["title", "version", "description"]

/-- Only so many lines at the beginning of a file are its header. -/
def lineLimit : Nat := 20

def field? (text : String) : Option (String × String) :=
  fieldNames.findSome? fun name => (Line.facet? (name ++ ":") text).map fun value => (name, value)

def read (header : Header) : List String → Header
  | [] => header
  | source :: rest =>
    let text := Text.trim source
    let header :=
      match field? text with
      | some (name, value) => Entries.put header name value
      | none => header
    if text = "types:" then header else read header rest

/-- The header of a file: its first lines, down to the list of types. -/
def ofLines (sources : List String) : Header := read [] (sources.take lineLimit)

end Header

end RamlSchema.Raml
