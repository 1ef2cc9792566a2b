import RamlSchema.Conversion.Registry
import RamlSchema.Conversion.Sources
import RamlSchema.Conversion.Writer
import RamlSchema.Schema.Scaffold

/-!
# Conversion of a directory

Every source file of a directory is read, the schemas of its types are registered, and the schemas
that remain are written, each to a file of its own. A file that cannot be read is left out and does
not stop the others.
-/

namespace RamlSchema.Conversion

open Files (FileTree Path)
open Raml (Declaration Target)
open Report (Failure FileReport Generated Kind Rename Run Summary Written)

def kindOf (type : Declaration) : Kind := if type.isEnum then .enum else .object

def targetOf (kind : Kind) (name : String) : Target :=
  match kind with
  | .enum => .enum name
  | .object => .object name

def directoryOf : Kind → String
  | .enum => "common/enums"
  | .object => Schema.objectDirectory

def outputPath (convention : Convention) (output : Path) (kind : Kind) (name : String) : Path :=
  (output.child (directoryOf kind)).child ((targetOf kind name).fileName convention)

/-! ### One source file -/

structure Record where
  type : Declaration
  schema : Json

def written (convention : Convention) (output : Path) (kind : Kind) (records : List Record) :
    List Written :=
  (records.filter fun record => kindOf record.type = kind).map fun record =>
    ⟨record.type.name, (outputPath convention output kind record.type.name).text⟩

def generated (convention : Convention) (record : Record) : Generated where
  file := (targetOf (kindOf record.type) record.type.name).fileName convention
  content := record.schema.print
  kind := kindOf record.type

/-- The change that the convention makes to the name of a type, if it makes one. -/
def rename? (convention : Convention) (type : Declaration) : Option Rename :=
  let after := convention.apply type.name
  if after = type.name then none
  else some { before := type.name, after, scope := if type.isEnum then "enum" else "type" }

def reportOf (convention : Convention) (output source : Path) (file : SourceFile)
    (records : List Record) : FileReport where
  input := source.text
  size := some file.size
  header := file.parsed.header
  content := some file.content
  enums := written convention output .enum records
  objects := written convention output .object records
  findings := file.parsed.findings
  renames := records.filterMap fun record => rename? convention record.type
  generated := records.map (generated convention)

inductive Outcome where
  | failed (failure : Failure)
  | converted (report : FileReport) (records : List Record)

def convertSource (settings : Settings) (tree : FileTree) (output source : Path) : Outcome :=
  match readSource settings.convention tree source with
  | .error fault => .failed ⟨source.text, fault.message⟩
  | .ok file =>
    let records := file.parsed.types.map fun type =>
      ⟨type, Schema.document settings.dialect type⟩
    .converted (reportOf settings.convention output source file records) records

/-! ### All of them -/

structure Gathered where
  registry : Registry := {}
  reports : List FileReport := []
  failures : List Failure := []

def registerAll (registry : Registry) (file : String) (records : List Record) : Registry :=
  records.foldl
    (fun registry record =>
      registry.register (kindOf record.type) record.type.name record.schema file)
    registry

/-- Takes in one source file. The report of a file warns of every name that it takes over. -/
def Gathered.add (gathered : Gathered) : Outcome → Gathered
  | .failed failure => { gathered with failures := gathered.failures ++ [failure] }
  | .converted report records =>
    let registry := registerAll gathered.registry report.input records
    let collisions := registry.collisions.drop gathered.registry.collisions.length
    { gathered with
      registry
      reports :=
        gathered.reports ++
          [{ report with warnings := report.warnings ++ collisions.map (·.message) }] }

def gather (outcomes : List Outcome) : Gathered := outcomes.foldl Gathered.add {}

def writeAll (writer : Writer) (documents : List (Path × Json)) : Action Unit :=
  documents.forM fun (path, document) => do
    let _ ← writer.write path document true

def schemaFiles (convention : Convention) (output : Path) (kind : Kind)
    (schemas : Entries String Json) : List (Path × Json) :=
  schemas.map fun (name, schema) => (outputPath convention output kind name, schema)

def scaffoldFiles (settings : Settings) (output : Path) (names : List String) :
    List (Path × Json) :=
  [(output.child Schema.messageFile, Schema.messageDocument settings.dialect),
    (output.child Schema.metadataFile, Schema.metadataDocument settings.dialect),
    (output.child Schema.aggregatorFile,
      Schema.aggregatorDocument settings.dialect settings.convention.apply names)]

/-- The files of a run in the order in which they are written: enums, objects, scaffold. -/
def outputFiles (settings : Settings) (output : Path) (registry : Registry) :
    List (Path × Json) :=
  schemaFiles settings.convention output .enum registry.enums ++
    schemaFiles settings.convention output .object registry.objects ++
    if settings.scaffold.isTruthy then scaffoldFiles settings output registry.objects.keys else []

def Gathered.run (gathered : Gathered) (output : Path) (files : Nat) : Run :=
  let registry := gathered.registry
  { enumNames := registry.enums.keys
    objectNames := registry.objects.keys
    output := output.text
    reports := gathered.reports
    failures := gathered.failures
    collisions := registry.collisions
    summary :=
      .ofReports gathered.reports gathered.failures files registry.enums.length
        registry.objects.length registry.collisions.length output.text }

def createDirectories (output : Path) : Action Unit := do
  onFiles (Files.ensureDirectories output)
  onFiles (Files.ensureDirectories (output.child (directoryOf .enum)))
  onFiles (Files.ensureDirectories (output.child (directoryOf .object)))

/-- Converts the source files of a directory into schema files below another. -/
def convertDirectory (settings : Settings) (stamp : String) (input output : Path) :
    Action Run := do
  let settings ← MonadExcept.ofExcept (ofSetting settings.inUse)
  let tree ← get
  let sources ← MonadExcept.ofExcept (discover settings tree input)
  MonadExcept.ofExcept (ofSetting settings.checkWorkers)
  let gathered := gather (sources.map (convertSource settings tree output))
  createDirectories output
  writeAll ⟨settings.output, stamp⟩ (outputFiles settings output gathered.registry)
  pure (gathered.run output sources.length)

end RamlSchema.Conversion
