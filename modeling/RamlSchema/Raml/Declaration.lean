import RamlSchema.Json.Basic

/-!
# Declared types

The types of a source file: objects with properties, and enums with values. An enum that stands in
the middle of a property becomes a declaration of its own, so that no declaration holds another.
-/

namespace RamlSchema.Raml

/-- The JSON type of a value: one name, or the names of a union's members. -/
inductive TypeKeyword where
  | single (name : String)
  | union (names : List String)
  deriving DecidableEq, Repr

def TypeKeyword.allows (keyword : TypeKeyword) (name : String) : Bool :=
  match keyword with
  | .single n => n == name
  | .union names => names.contains name

def keywordJson : Option TypeKeyword → Json
  | none => .null
  | some (.single name) => .str name
  | some (.union names) => .texts names

structure Items where
  type : Option TypeKeyword := none
  reference : Option String := none
  deriving DecidableEq, Repr

/-- What is known of one property. The type is missing where a reference gives the shape, and
`token` is the type as the source writes it. -/
structure Property where
  type : Option TypeKeyword := some (.single "string")
  description : String := ""
  format : Option String := none
  items : Option Items := none
  reference : Option String := none
  token : Option String := none
  deriving DecidableEq, Repr

structure Origin where
  parent : String
  property : String
  deriving DecidableEq, Repr

structure Declaration where
  name : String := ""
  properties : Entries String Property := []
  required : List String := []
  isEnum : Bool := false
  values : List String := []
  description : String := ""
  origin : Option Origin := none
  deriving DecidableEq, Repr

/-- A property declared again takes the place of the earlier one, and a name once required stays
so. -/
def Declaration.addProperty (declaration : Declaration) (name : String) (property : Property)
    (isOptional : Bool) : Declaration :=
  { declaration with
    properties := declaration.properties.put name property
    required :=
      if isOptional || declaration.required.contains name then declaration.required
      else declaration.required ++ [name] }

end RamlSchema.Raml
