import RamlSchema.Naming
import RamlSchema.Schema.Document
import RamlSchema.Settings.Fault

/-!
# Settings

The options of a conversion, as a settings file gives them. Only the naming convention and the
output mode are checked on loading; the other values are stored as they are, and names that mean
nothing are ignored. The name `__dict__` puts a whole new store in the place of what was given so
far: it has no standard values for the excluded files and the output, and nothing in it is checked.
-/

namespace RamlSchema

inductive OutputMode where
  | force
  | error
  deriving DecidableEq, Repr

namespace OutputMode

def label : OutputMode → String
  | .force => "force"
  | .error => "error"

def ofLabel? (label : String) : Option OutputMode :=
  [OutputMode.force, .error].find? (·.label == label)

end OutputMode

/-- The mode of the output. A value that is no text names no mode and forbids nothing. -/
inductive ModeSetting where
  | known (mode : OutputMode)
  | other (value : Json)
  deriving DecidableEq

/-- The part of the settings about output files, or a value that stands in its place. A new store
may have neither. -/
inductive OutputSetting where
  | given (mode : ModeSetting) (atomic : Json)
  | other (value : Json)
  | unset
  deriving DecidableEq

def OutputSetting.standard : OutputSetting := .given (.known .force) (.bool true)

/-- The settings. A new store may give a convention that has not been checked, and a value that gets
in the way when the settings are to be shown. -/
structure Settings where
  convention : Convention := .pascal
  storedConvention : Option Json := none
  excludedFiles : Option Json := some (.texts ["cdm.raml"])
  extension : Json := .str ".raml"
  enumDirectory : Json := .str "enums"
  dialect : Json := Schema.defaultDialect
  workers : Json := .int 1
  scaffold : Json := .bool true
  batchSize : Json := .int 50
  referenceWorkers : Json := .int 4
  output : OutputSetting := .standard
  obstacle : Option Json := none
  deriving DecidableEq

def Convention.ofJson (value : Json) : Except SettingFault Convention :=
  match value with
  | .str label =>
    match ofLabel? label with
    | some convention => .ok convention
    | none => .error (.unknownConvention value)
  | _ => .error (.unknownConvention value)

def ModeSetting.ofJson : Json → Except SettingFault ModeSetting
  | .str label =>
    match OutputMode.ofLabel? label with
    | some mode => .ok (.known mode)
    | none => .error (.unknownMode label)
  | value => .ok (.other value)

def OutputSetting.ofJson (value : Json) : Except SettingFault OutputSetting :=
  match value with
  | .obj _ => do
    let mode ← ModeSetting.ofJson ((value.member? "mode").getD (.str OutputMode.force.label))
    .ok (.given mode ((value.member? "atomic_write").getD (.bool true)))
  | _ => .ok (.other value)

namespace Settings

/-- The settings with a value stored under a name, which is not looked at. -/
def store (settings : Settings) (name : String) (value : Json) : Settings :=
  match name with
  | "excluded_files" => { settings with excludedFiles := some value }
  | "source_extension" => { settings with extension := value }
  | "enums_subdirectory" => { settings with enumDirectory := value }
  | "schema_dialect" => { settings with dialect := value }
  | "max_workers" => { settings with workers := value }
  | "write_scaffold" => { settings with scaffold := value }
  | "reference_batch_size" => { settings with batchSize := value }
  | "reference_max_workers" => { settings with referenceWorkers := value }
  | "output" => { settings with output := .other value }
  | "to_dict" => { settings with obstacle := some value }
  | _ => settings

/-- Whether nothing is stored under a name that has no standard value. -/
def isUnset (settings : Settings) (name : String) : Bool :=
  name == "excluded_files" && settings.excludedFiles.isNone ||
    name == "output" && settings.output = .unset

def ofStore (members : List (String × Json)) : Settings :=
  members.foldl
    (fun settings (name, value) =>
      if name = "naming_convention" then { settings with storedConvention := some value }
      else settings.store name value)
    { excludedFiles := none, output := .unset }

def withConvention (settings : Settings) (convention : Convention) : Settings :=
  { settings with convention, storedConvention := none }

def set (settings : Settings) (name : String) (value : Json) : Except SettingFault Settings :=
  match name, value with
  | "naming_convention", value => (Convention.ofJson value).map settings.withConvention
  | "output", .obj _ => do
    let output ← OutputSetting.ofJson value
    .ok { settings with output }
  | "__class__", value => .error (.noKind value)
  | "__weakref__", _ => .error (.unwritable "__weakref__")
  | "__dict__", .obj members => .ok (ofStore members)
  | "__dict__", value => .error (.noStore value)
  | name, value => .ok (if settings.isUnset name then settings else settings.store name value)

/-- The settings that a document gives, in the order of its members. -/
def ofJson : Json → Except SettingFault Settings
  | .obj members => members.foldlM (fun settings (name, value) => settings.set name value) {}
  | value => .error (.noMember value "items")

def outputJson : OutputSetting → Except SettingFault Json
  | .given (.known mode) atomic =>
    .ok (.obj [("mode", .str mode.label), ("atomic_write", atomic)])
  | .given (.other value) _ => .error (.noMember value "value")
  | .other value => .error (.noMember value "mode")
  | .unset => .error (.unset "output")

/-- Why the settings cannot be shown, apart from their output. -/
def shownFault? (settings : Settings) : Option SettingFault :=
  (settings.obstacle.map .noAction).or
    ((settings.storedConvention.map (.noMember · "value")).or
      (if settings.excludedFiles.isNone then some (.unset "excluded_files") else none))

/-- The settings as a document. Only an output mode that is known can be shown. -/
def toJson (settings : Settings) : Except SettingFault Json := do
  if let some fault := settings.shownFault? then .error fault
  let output ← outputJson settings.output
  .ok (.obj [("naming_convention", .str settings.convention.label),
    ("excluded_files", settings.excludedFiles.getD .null),
    ("source_extension", settings.extension), ("enums_subdirectory", settings.enumDirectory),
    ("schema_dialect", settings.dialect), ("max_workers", settings.workers),
    ("write_scaffold", settings.scaffold), ("reference_batch_size", settings.batchSize),
    ("reference_max_workers", settings.referenceWorkers), ("output", output)])

/-- Whether two settings say the same, where both can be shown. -/
def agrees (a b : Settings) : Bool :=
  match a.toJson, b.toJson with
  | .ok x, .ok y => x.agrees y
  | _, _ => false

end Settings

end RamlSchema
