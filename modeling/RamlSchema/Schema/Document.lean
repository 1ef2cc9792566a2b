import RamlSchema.Raml.Declaration
import RamlSchema.Text.Basic
import RamlSchema.Text.Case

/-!
# Schema documents

Declared types as JSON Schema documents. An enum lists its values, and an object lists its
properties and allows no others.
-/

namespace RamlSchema.Schema

open Raml (Declaration Items Property TypeKeyword keywordJson)

def defaultDialect : Json := .str "https://json-schema.org/draft/2020-12/schema"

def referenceJson (reference : String) : Json := .obj [("$ref", .str reference)]

def anything : Json := .obj []

def given (text : Option String) : Option String := text.filter (!·.isEmpty)

def allowsAny (keyword : Option TypeKeyword) : Bool := keyword.any (·.allows "any")

def itemsSchema (items : Items) : Json :=
  match given items.reference with
  | some reference => referenceJson reference
  | none => if allowsAny items.type then anything else .obj [("type", keywordJson items.type)]

/-- The formats of the types that fix one, whatever the property's name suggests. -/
def fixedFormats : List (String × String) :=
  [("date-only", "date"), ("datetime", "date-time"), ("time", "time"), ("time-only", "time"),
    ("datetime-only", "date-time"), ("datetime-with-timezone", "date-time")]

def formatOf (property : Property) : Option String :=
  given ((property.token.bind fun token => fixedFormats.lookup token).or property.format)

/-- The format of a property by its type, or else the one that text called an email address has. -/
def finalFormat (name type : String) (property : Property) : Option String :=
  (formatOf property).or <|
    if type = "string" && Text.contains (Text.Case.lower name) "email" then some "email" else none

def scalarSchema (name type : String) (property : Property) : Json :=
  .obj (("type", .str type) ::
    match finalFormat name type property with
    | some format => [("format", .str format)]
    | none => [])

/-- The schema of a property that is no reference and no array with known elements. -/
def plainSchema? (name : String) (property : Property) : Option Json :=
  if allowsAny property.type || property.token == some "any" then some anything
  else
    match property.type with
    | some (.union names) => some (.obj [("type", .texts names)])
    | some (.single type) => if type.isEmpty then none else some (scalarSchema name type property)
    | none => none

def propertySchema? (name : String) (property : Property) : Option Json :=
  match given property.reference with
  | some reference => some (referenceJson reference)
  | none =>
    match property.items with
    | some items =>
      if property.type = some (.single "array") then
        some (.obj [("type", .str "array"), ("items", itemsSchema items)])
      else plainSchema? name property
    | none => plainSchema? name property

/-- The description of an enum is shown where it was lifted out of a property. -/
def enumSchema (dialect : Json) (type : Declaration) : Json :=
  .obj ([("$schema", dialect), ("title", .str type.name), ("type", .str "string"),
    ("enum", .texts type.values)] ++
    if type.origin.isSome then [("description", .str type.description)] else [])

def propertySchemas (type : Declaration) : List (String × Json) :=
  type.properties.filterMap fun (name, property) =>
    (propertySchema? name property).map fun schema => (name, schema)

def objectSchema (dialect : Json) (type : Declaration) : Json :=
  .obj ([("$schema", dialect), ("title", .str type.name), ("type", .str "object"),
    ("properties", .obj (propertySchemas type)), ("additionalProperties", .bool false)] ++
    if type.required.isEmpty then [] else [("required", .texts type.required)])

def document (dialect : Json) (type : Declaration) : Json :=
  if type.isEnum then enumSchema dialect type else objectSchema dialect type

end RamlSchema.Schema
