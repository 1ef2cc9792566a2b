import RamlSchema.Raml.Declaration

/-!
# Findings

What reading a source file found worth telling: unions, lifted enums, inferred formats, and how each
property was read. Nothing depends on findings, and each has the shape in which it is shown.
-/

namespace RamlSchema.Report

open Raml (Items TypeKeyword keywordJson)

structure UnionFinding where
  parent : String := ""
  property : String := ""
  token : String := ""
  members : List String := []
  strategy : String := "type-array"
  line : Option Int := none
  deriving DecidableEq, Repr

/-- An enum lifted out of a property. `lines` are the line that says `enum:` and the line of the
last value, if no other lines stand between them. -/
structure LiftFinding where
  parent : String := ""
  property : String := ""
  name : String := ""
  reference : String := ""
  values : List String := []
  lines : Option (Int × Int) := none
  deriving DecidableEq, Repr

structure FormatFinding where
  property : String := ""
  parent : String := ""
  token : String := ""
  format : Option String := none
  reason : String := ""
  confidence : String := "low"
  deriving DecidableEq, Repr

structure PropertyFinding where
  parent : String
  property : String
  source : String
  token : Option String
  description : String
  isOptional : Bool
  line : Int
  type : Option TypeKeyword
  format : Option String
  reference : Option String
  items : Option Items
  formatReason : Option String
  typeReason : Option String
  note : Option String
  deriving DecidableEq, Repr

structure Findings where
  properties : List PropertyFinding := []
  unions : List UnionFinding := []
  formats : List FormatFinding := []
  lifts : List LiftFinding := []
  deriving DecidableEq, Repr

def Findings.append (a b : Findings) : Findings where
  properties := a.properties ++ b.properties
  unions := a.unions ++ b.unions
  formats := a.formats ++ b.formats
  lifts := a.lifts ++ b.lifts

instance : Append Findings := ⟨Findings.append⟩

/-! ### Shown as documents -/

def itemsJson : Option Items → Json
  | none => .null
  | some items => .obj [("type", keywordJson items.type), ("$ref", .optional items.reference)]

def whenSome (key : String) (value : Option Json) : List (String × Json) :=
  match value with
  | some value => [(key, value)]
  | none => []

def UnionFinding.toJson (finding : UnionFinding) : Json :=
  .obj ([("parentType", .str finding.parent), ("property", .str finding.property),
    ("original", .str finding.token), ("converted", .texts finding.members),
    ("strategy", .str finding.strategy)] ++ whenSome "lineNumber" (finding.line.map .int))

def LiftFinding.toJson (finding : LiftFinding) : Json :=
  .obj ([("parentType", .str finding.parent), ("property", .str finding.property),
    ("newEnumName", .str finding.name), ("file", .str finding.reference),
    ("values", .texts finding.values)] ++
    whenSome "lineRange"
      (finding.lines.map fun (start, stop) => .obj [("start", .int start), ("end", .int stop)]))

def FormatFinding.toJson (finding : FormatFinding) : Json :=
  .obj [("property", .str finding.property), ("parentType", .str finding.parent),
    ("originalType", .str finding.token), ("format", .optional finding.format),
    ("reason", .str finding.reason), ("confidence", .str finding.confidence)]

def PropertyFinding.toJson (finding : PropertyFinding) : Json :=
  .obj ([("parentType", .str finding.parent), ("propertyName", .str finding.property),
    ("originalRamlLine", .str finding.source), ("originalType", .optional finding.token),
    ("originalDescription", .str finding.description), ("isOptional", .bool finding.isOptional),
    ("lineNumber", .int finding.line), ("convertedType", keywordJson finding.type),
    ("format", .optional finding.format), ("$ref", .optional finding.reference),
    ("items", itemsJson finding.items)] ++
    whenSome "formatReason" (finding.formatReason.map .str) ++
    whenSome "typeReason" (finding.typeReason.map .str) ++
    whenSome "note" (finding.note.map .str))

end RamlSchema.Report
