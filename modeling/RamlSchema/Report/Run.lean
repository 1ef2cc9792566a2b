import RamlSchema.Report.File

/-!
# Run reports

What the conversion of a directory did: the names that were written, a report for every file that
was read, and the totals.
-/

namespace RamlSchema.Report

structure Failure where
  input : String
  error : String
  deriving DecidableEq, Repr

/-- A name that a later file gives to another type of the same kind. The later type stays. -/
structure Collision where
  name : String
  kind : Kind
  previousFile : String
  file : String
  deriving DecidableEq, Repr

/-- The totals of a run. The numbers of files, enums, objects and collisions are as the run says,
and the others are counted. There is no duration where the durations cannot be added. -/
structure Summary where
  files : Int := 0
  enums : Int := 0
  objects : Int := 0
  unions : Nat := 0
  lifts : Nat := 0
  collisions : Int := 0
  warnings : Nat := 0
  errors : Nat := 0
  duration : Option Number := some (.int 0)
  output : String := ""

structure Run where
  enumNames : List String := []
  objectNames : List String := []
  output : String := ""
  reports : List FileReport := []
  failures : List Failure := []
  collisions : List Collision := []
  summary : Summary := {}

def total (reports : List FileReport) (count : FileReport → Nat) : Nat :=
  reports.foldr (fun report sum => count report + sum) 0

def Summary.ofReports (reports : List FileReport) (failures : List Failure)
    (files enums objects collisions : Int) (output : String) : Summary where
  files
  enums
  objects
  unions := total reports (·.findings.unions.length)
  lifts := total reports (·.findings.lifts.length)
  collisions
  warnings := total reports (·.warnings.length)
  errors := total reports (·.errors.length) + failures.length
  duration := Duration.total? (reports.map (·.duration))
  output

def Failure.toJson (failure : Failure) : Json :=
  .obj [("inputFile", .str failure.input), ("error", .str failure.error)]

def Collision.toJson (collision : Collision) : Json :=
  .obj [("name", .str collision.name), ("kind", .str collision.kind.label),
    ("previousFile", .str collision.previousFile), ("file", .str collision.file)]

def Collision.message (collision : Collision) : String :=
  collision.kind.label ++ " '" ++ collision.name ++ "' from " ++ collision.previousFile ++
    " is overwritten by " ++ collision.file

def Summary.toJson (summary : Summary) : Json :=
  .obj [("filesProcessed", .int summary.files), ("enumsCreated", .int summary.enums),
    ("businessObjectsCreated", .int summary.objects), ("unionsCount", .nat summary.unions),
    ("inlineEnumsExtracted", .nat summary.lifts), ("collisionsCount", .int summary.collisions),
    ("warningsCount", .nat summary.warnings), ("errorsCount", .nat summary.errors),
    ("durationMs", (summary.duration.map .num).getD .null),
    ("outputDirectory", .str summary.output)]

def Run.toJson (run : Run) (withContent : Bool) : Json :=
  .obj [("enumNames", .texts run.enumNames), ("businessObjectNames", .texts run.objectNames),
    ("outputDirectory", .str run.output),
    ("reports", .arr (run.reports.map (·.toJson withContent))),
    ("failures", .arr (run.failures.map Failure.toJson)),
    ("collisions", .arr (run.collisions.map Collision.toJson)),
    ("summary", run.summary.toJson)]

/-! ### As text -/

def Summary.duration? (summary : Summary) : Option String :=
  summary.duration.bind Duration.text?

def Summary.lines (summary : Summary) : List String :=
  ["Output directory: " ++ summary.output, "",
    "Files processed:          " ++ Text.Decimal.int summary.files,
    "Enums created:            " ++ Text.Decimal.int summary.enums,
    "Business objects created: " ++ Text.Decimal.int summary.objects,
    "Union conversions:        " ++ Text.Decimal.nat summary.unions,
    "Inline enums extracted:   " ++ Text.Decimal.nat summary.lifts,
    "Name collisions:          " ++ Text.Decimal.int summary.collisions,
    "Warnings:                 " ++ Text.Decimal.nat summary.warnings,
    "Errors:                   " ++ Text.Decimal.nat summary.errors,
    "Duration:                 " ++ summary.duration?.getD "out of range" ++ " ms"]

def FileReport.lines (report : FileReport) : List String :=
  ["", report.input] ++
    (report.enums.map fun item => "  enum             " ++ item.name ++ " -> " ++ item.file) ++
    (report.objects.map fun item => "  business object  " ++ item.name ++ " -> " ++ item.file) ++
    (report.findings.unions.map fun union =>
      "  union            " ++ union.parent ++ "." ++ union.property ++ ": " ++ union.token) ++
    (report.findings.lifts.map fun lift =>
      "  inline enum      " ++ lift.parent ++ "." ++ lift.property ++ " -> " ++ lift.name) ++
    report.warnings.map ("  warning          " ++ ·)

def failureLines : List Failure → List String
  | [] => []
  | failures =>
    ["", "Skipped files:"] ++ failures.map fun failure =>
      "  " ++ failure.input ++ ": " ++ failure.error

/-- The report of a run as text, with the command that started it if that is known. -/
def Run.text (run : Run) (command : String) : String :=
  Text.unlines
    (["RAML to JSON Schema conversion"] ++
      (if command.isEmpty then [] else ["Command: " ++ command]) ++
      run.summary.lines ++ run.reports.flatMap FileReport.lines ++ failureLines run.failures)

end RamlSchema.Report
