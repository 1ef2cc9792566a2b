import RamlSchema.Command.Help
import RamlSchema.Command.Shown
import RamlSchema.Conversion.Directory
import RamlSchema.References.Load

/-!
# The program

Two commands: `convert` turns the source files of a directory into schemas, and `references` finds
out which schemas of a directory refer to which. Options on the command line override those of a
settings file.
-/

namespace RamlSchema.Command

open Files (FileTree Path)
open References (LoadedSchema Stats)

/-- What ends a run at once: settings that cannot be used, or a path that means nothing. -/
inductive Abort where
  | notText (fault : Text.Utf8.Fault)
  | notDocument
  | setting (fault : SettingFault)
  | files (fault : Files.Fault)
  deriving DecidableEq

inductive Outcome where
  | done (output : String)
  | failed (message : String)
  | aborted (cause : Abort)
  | badUsage

def Outcome.exitCode : Outcome → Nat
  | .done _ => 0
  | .failed _ | .aborted _ => 1
  | .badUsage => 2

def Outcome.output : Outcome → String
  | .done output => output
  | _ => ""

def Abort.message : Abort → String
  | .notText fault => fault.message
  | .notDocument => "The settings file holds no JSON document"
  | .setting fault => fault.message
  | .files fault => fault.message

def Outcome.errorText : Outcome → String
  | .done _ => ""
  | .failed message => "Error: " ++ message ++ "\n"
  | .aborted cause => "Error: " ++ cause.message ++ "\n"
  | .badUsage => "Error: wrong usage\n"

def Outcome.ofHalt (help : List String) : Halt → Outcome
  | .usage | .wrongKind => .badUsage
  | .nullCharacter => .aborted (.files .nullCharacter)
  | .help => .done (Text.unlines help)

/-! ### Parameters -/

def programParameters : List Parameter :=
  [.option
      { spellings := ["--log-level"], name := "log_level"
        kind := .choice ["DEBUG", "INFO", "WARNING", "ERROR"] true, default := .str "WARNING" },
    .option
      { spellings := ["--verbose", "-v"], name := "verbose", kind := .flag
        default := .bool false }]

def configOption : CommandOption :=
  { spellings := ["--config", "-c"], name := "config", kind := .path .file }

def workersOption : CommandOption :=
  { spellings := ["--workers", "-w"], name := "workers", kind := .number (some 1) }

def jsonOption : CommandOption :=
  { spellings := ["--json"], name := "as_json", kind := .flag, default := .bool false }

def convertParameters : List Parameter :=
  [.option
      { spellings := ["--naming-convention", "-n"], name := "naming_convention"
        kind := .choice (Convention.all.map (·.label)) false },
    .option configOption, .option workersOption, .option jsonOption,
    .argument "input_dir" (.path .directory) true, .argument "output_dir" (.path .output) true]

def referencesParameters : List Parameter :=
  [.option configOption,
    .option
      { spellings := ["--batch-size", "-b"], name := "batch_size", kind := .number (some 1) },
    .option workersOption, .option jsonOption, .argument "schema_dir" (.path .directory) true]

def commands : Entries String (List Parameter) :=
  [("convert", convertParameters), ("references", referencesParameters)]

/-! ### Values -/

def Values.text? (values : Values) (name : String) : Option String :=
  match Entries.get? values name with
  | some (.text s) => some s
  | _ => none

def Values.number? (values : Values) (name : String) : Option Int :=
  match Entries.get? values name with
  | some (.number n) => some n
  | _ => none

def Values.isOn (values : Values) (name : String) : Bool :=
  Entries.get? values name == some (.flag true)

def Values.path? (values : Values) (name : String) : Option Path :=
  (values.text? name).map Path.ofText

/-! ### Settings -/

/-- The settings in a file, or the standard ones where no file is given. -/
def loadSettings (tree : FileTree) : Option Path → Except Abort Settings
  | none => .ok {}
  | some path =>
    match Text.Utf8.decode ((tree.readBytes path).toOption.getD []) with
    | .error fault => .error (.notText fault)
    | .ok text =>
      match Json.read? text with
      | none => .error .notDocument
      | some document => (Settings.ofJson document).mapError .setting

/-! ### The commands -/

def convertSettings (values : Values) (settings : Settings) : Settings :=
  let workers := ((values.number? "workers").map Json.int).getD settings.workers
  match (values.text? "naming_convention").bind Convention.ofLabel? with
  | some convention => { settings with workers }.withConvention convention
  | none => { settings with workers }

def convertOutput (values : Values) (tree : FileTree) (run : Report.Run) :
    Except Files.Fault String :=
  if values.isOn "as_json" then .ok (run.toJson false).print
  else (shownLine tree programName (some "convert") convertParameters values).map run.text

def convertWith (stamp : String) (values : Values) (settings : Settings) (input output : Path)
    (tree : FileTree) : Outcome × FileTree :=
  match Conversion.convertDirectory (convertSettings values settings) stamp input output tree with
  | .error fault after => (.failed fault.message, after)
  | .ok run after =>
    match convertOutput values after run with
    | .ok text => (.done text, after)
    | .error fault => (.aborted (.files fault), after)

def convert (stamp : String) (words : List String) (tree : FileTree) : Outcome × FileTree :=
  match Parameter.parse tree convertParameters words with
  | .error halt => (.ofHalt Help.convert halt, tree)
  | .ok values =>
    match values.path? "input_dir", values.path? "output_dir" with
    | some input, some output =>
      match loadSettings tree (values.path? "config") with
      | .error cause => (.aborted cause, tree)
      | .ok settings => convertWith stamp values settings input output tree
    | _, _ => (.badUsage, tree)

def referencesSettings (values : Values) (settings : Settings) : Settings :=
  let batchSize := ((values.number? "batch_size").map Json.int).getD settings.batchSize
  let referenceWorkers := ((values.number? "workers").map Json.int).getD settings.referenceWorkers
  { settings with batchSize, referenceWorkers }

def referencesJson (schemas : List LoadedSchema) (stats : Stats) : Json :=
  .obj [("stats", stats.toJson), ("schemas", .arr (schemas.map (·.toJson)))]

def referencesLines (schemas : List LoadedSchema) (stats : Stats) : List String :=
  ["Schemas loaded:        " ++ Text.Decimal.nat schemas.length,
    "References:            " ++ Text.Decimal.nat stats.total,
    "Resolved:              " ++ Text.Decimal.nat stats.resolved,
    "Unresolved:            " ++ Text.Decimal.nat stats.unresolved,
    "Self references:       " ++ Text.Decimal.nat stats.selfReferences,
    "Cache hits:            " ++ Text.Decimal.nat stats.cacheHits] ++
    ((schemas.filter fun schema => !schema.referencedBy.isEmpty).map fun schema =>
      schema.relativePath ++ " <- " ++ Text.Decimal.nat schema.referencedBy.length ++
        " schema(s)") ++
    stats.misses.map fun query =>
      "unresolved: " ++ query.source ++ " -> " ++ query.reference.text

def referencesOutput (values : Values) (schemas : List LoadedSchema) (stats : Stats) : String :=
  if values.isOn "as_json" then (referencesJson schemas stats).print
  else Text.unlines (referencesLines schemas stats)

/-- The command `references`, which changes no file. -/
def references (words : List String) (tree : FileTree) : Outcome :=
  match Parameter.parse tree referencesParameters words with
  | .error halt => .ofHalt Help.references halt
  | .ok values =>
    match values.path? "schema_dir" with
    | none => .badUsage
    | some root =>
      match loadSettings tree (values.path? "config") with
      | .error cause => .aborted cause
      | .ok settings =>
        match References.loadResolved (referencesSettings values settings) tree root with
        | .error fault => .failed fault.message
        | .ok (schemas, stats) => .done (referencesOutput values schemas stats)

/-! ### The program -/

/-- The command that the words ask for, with the words behind its name. -/
def commandWords (words : List String) (tree : FileTree) : Except Halt (List String) :=
  match Parameter.readWords programParameters false words with
  | none => .error .usage
  | some given =>
    (Parameter.bind tree programParameters { given with arguments := [] }).map fun _ =>
      given.arguments

/-- Runs the program on the words behind its name. `stamp` goes into the names of temporary
files. -/
def run (stamp : String) (words : List String) (tree : FileTree) : Outcome × FileTree :=
  match commandWords words tree with
  | .error halt => (.ofHalt Help.program halt, tree)
  | .ok ("convert" :: words) => convert stamp words tree
  | .ok ("references" :: words) => (references words tree, tree)
  | .ok _ => (.badUsage, tree)

def givenPath? (tree : FileTree) (inputs : Entries String Json) (parameter : Parameter) :
    Option (String × Path) :=
  match parameter.kind, inputs.get? parameter.name with
  | .path _, some (.str text) => some (parameter.name, (Path.ofText text).absolute tree.here)
  | _, _ => none

/-- The paths that the words give to a command, by the names of its parameters. -/
def givenPaths (words : List String) (tree : FileTree) : Entries String Path :=
  match (Parameter.readWords programParameters false words).map (·.arguments) with
  | some (command :: words) =>
    let parameters := (commands.get? command).getD []
    match Parameter.readWords parameters true words with
    | some given => parameters.filterMap (givenPath? tree (Parameter.inputs parameters given))
    | none => []
  | _ => []

/-- The directory of enums that the settings name within the input directory. -/
def enumsPath? (paths : Entries String Path) (tree : FileTree) : Option Path := do
  let input ← paths.get? "input_dir"
  let settings ← (loadSettings tree (paths.get? "config")).toOption
  let name ← settings.enumPath.toOption
  some ((input.child name).absolute tree.here)

/-- The files and directories that a run looks into, as far as `tree` tells: the settings file has
to be in it before it can name a directory. -/
def pathsRead (words : List String) (tree : FileTree) : List Path :=
  let paths := givenPaths words tree
  paths.values ++ (enumsPath? paths tree).toList

end RamlSchema.Command
