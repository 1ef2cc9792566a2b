import RamlSchema.Report.Duration
import RamlSchema.Report.Finding
import RamlSchema.Text.Basic

/-!
# File reports

What the conversion of one source file read and wrote.
-/

namespace RamlSchema.Report

inductive Kind where
  | enum
  | object
  deriving DecidableEq, Repr

def Kind.label : Kind → String
  | .enum => "enum"
  | .object => "business-object"

structure Written where
  name : String := ""
  file : String := ""
  deriving DecidableEq, Repr

structure Rename where
  before : String := ""
  after : String := ""
  scope : String := "type"
  context : Option String := none
  deriving DecidableEq, Repr

structure Generated where
  file : String
  content : String
  kind : Kind
  deriving DecidableEq, Repr

structure FileReport where
  input : String := ""
  size : Option Nat := none
  header : Entries String String := []
  content : Option String := none
  enums : List Written := []
  objects : List Written := []
  findings : Findings := {}
  renames : List Rename := []
  generated : List Generated := []
  duration : Number := .binary .zero
  warnings : List String := []
  errors : List String := []

def Written.toJson (written : Written) : Json :=
  .obj [("name", .str written.name), ("file", .str written.file)]

def Written.mapping (kind : Kind) (written : Written) : Json :=
  .obj [("file", .str written.file), ("type", .str kind.label), ("name", .str written.name)]

def Rename.toJson (rename : Rename) : Json :=
  .obj ([("original", .str rename.before), ("converted", .str rename.after),
    ("scope", .str rename.scope)] ++ whenSome "context" (rename.context.map .str))

def Generated.toJson (generated : Generated) : Json :=
  .obj [("fileName", .str generated.file), ("content", .str generated.content),
    ("type", .str generated.kind.label)]

namespace FileReport

/-- The formats inferred in the file, each once and in alphabetical order. -/
def formats (report : FileReport) : List String :=
  Text.sorted
    ((report.findings.formats.filterMap fun finding =>
      finding.format.filter (!·.isEmpty)).eraseDups)

def mapping (report : FileReport) : Json :=
  .obj [("inputFile", .str report.input), ("inputSize", (report.size.map Json.nat).getD .null),
    ("ramlHeader", .obj (report.header.map fun (name, value) => (name, .str value))),
    ("outputFiles",
      .arr (report.enums.map (Written.mapping .enum) ++
        report.objects.map (Written.mapping .object)))]

def contentMembers (report : FileReport) : List (String × Json) :=
  ("generatedSchemas", .arr (report.generated.map Generated.toJson)) ::
    whenSome "originalRamlContent" (report.content.map .str)

/-- The report as a document, with the content of the source and the generated files if
`withContent` asks for it. -/
def toJson (report : FileReport) (withContent : Bool) : Json :=
  .obj ([("inputFile", .str report.input),
    ("enumsWritten", .arr (report.enums.map Written.toJson)),
    ("businessObjectsWritten", .arr (report.objects.map Written.toJson)),
    ("inferredFormats", .texts report.formats),
    ("unionsCount", .nat report.findings.unions.length),
    ("inlineEnumsExtracted", .texts (report.findings.lifts.map (·.name))),
    ("warnings", .texts report.warnings),
    ("errors", .texts report.errors),
    ("durationMs", .num report.duration),
    ("fileMapping", report.mapping),
    ("propertyTransformations", .arr (report.findings.properties.map PropertyFinding.toJson)),
    ("unionConversions", .arr (report.findings.unions.map UnionFinding.toJson)),
    ("inlineEnumExtractions", .arr (report.findings.lifts.map LiftFinding.toJson)),
    ("namingChanges", .arr (report.renames.map Rename.toJson)),
    ("formatInferences", .arr (report.findings.formats.map FormatFinding.toJson))] ++
    if withContent then report.contentMembers else [])

end FileReport

end RamlSchema.Report
