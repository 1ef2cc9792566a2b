import RamlSchema.Raml.TypeToken

/-!
# Inferred formats

The JSON Schema format that the type or the name of a property suggests. Types of dates and times
decide for themselves, and for plain text the words in the property's name are a guess.
-/

namespace RamlSchema.Raml

inductive Confidence where
  | high
  | medium
  | low
  deriving DecidableEq, Repr

def Confidence.label : Confidence → String
  | .high => "high"
  | .medium => "medium"
  | .low => "low"

/-- A format with the reason for it. `wantsPattern` marks a property that asks for a pattern and has
no format. -/
structure FormatInference where
  format : Option String
  reason : String
  confidence : Confidence
  wantsPattern : Bool := false
  deriving DecidableEq, Repr

namespace FormatInference

def typeFormats : List (String × String) :=
  [("date", "date"), ("datetime", "date-time"), ("datetime-only", "date-time"), ("time", "time"),
    ("time-only", "time")]

/-- A kind of text that words in a property's name point to. -/
structure Hint where
  words : List String
  format : Option String
  wording : String
  confidence : Confidence

def hints : List Hint :=
  [⟨["email", "mail"], some "email", "email format", .medium⟩,
    ⟨["uri", "url", "link"], some "uri", "URI format", .medium⟩,
    ⟨["uuid", "guid"], some "uuid", "UUID format", .medium⟩,
    ⟨["phone", "tel"], none, "phone number pattern", .low⟩,
    ⟨["password", "secret"], some "password", "password format", .medium⟩]

def ofType (type format : String) : FormatInference :=
  ⟨some format,
    "RAML type \"" ++ type ++ "\" maps to JSON Schema format \"" ++ format ++ "\"", .high, false⟩

def ofHint (hint : Hint) (property : String) : FormatInference :=
  ⟨hint.format, "Property name \"" ++ property ++ "\" suggests " ++ hint.wording, hint.confidence,
    hint.format.isNone⟩

def unknown (token property : String) : FormatInference :=
  ⟨none,
    "No format inference available for RAML type \"" ++ token ++ "\" and property \"" ++ property ++
      "\"", .low, false⟩

/-- The first hint that has a word in the name, in small letters. -/
def hint? (property : String) : Option Hint :=
  hints.find? fun hint => hint.words.any (Text.contains (Text.Case.lower property) ·)

def infer (token property : String) : FormatInference :=
  let type := Text.Case.lower (TypeToken.clean token)
  match typeFormats.lookup type with
  | some format => ofType type format
  | none =>
    match if type = "string" then hint? property else none with
    | some hint => ofHint hint property
    | none => unknown token property

def isNotable (inference : FormatInference) : Bool :=
  inference.format.isSome || inference.wantsPattern

end FormatInference

end RamlSchema.Raml
