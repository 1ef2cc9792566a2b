import RamlSchema.Settings.Basic

/-!
# Settings in use

What a stored value means at the place where it is used, or why it means nothing there.
-/

namespace RamlSchema

/-- A number, where true counts as one and false as zero. -/
def Json.number? : Json → Option Number
  | .num n => some n
  | .bool b => some (.int (if b then 1 else 0))
  | _ => none

namespace Settings

/-- The naming convention, also one that was stored and has to be checked now. -/
def usableConvention (settings : Settings) : Except SettingFault Convention :=
  match settings.storedConvention with
  | none => .ok settings.convention
  | some value => Convention.ofJson value

/-- The settings as a conversion takes them up. It needs a convention and some word on its
output. -/
def inUse (settings : Settings) : Except SettingFault Settings := do
  let convention ← settings.usableConvention
  if settings.output = .unset then .error (.unset "output")
  else .ok (settings.withConvention convention)

/-- A name in a list of names. Lists and objects are no names, and other values name nothing. -/
def listedName (value : Json) : Except SettingFault (Option String) :=
  match value with
  | .str name => .ok (some name)
  | .arr _ | .obj _ => .error (.noName value)
  | _ => .ok none

/-- The names of the files that are left out. A text stands for its characters, and an object for
its keys. -/
def excludedNames (settings : Settings) : Except SettingFault (List String) :=
  match settings.excludedFiles with
  | none => .error (.unset "excluded_files")
  | some (.arr items) => (items.mapM listedName).map (·.filterMap id)
  | some (.str text) => .ok (text.toList.map fun c => .ofList [c])
  | some (.obj members) => .ok (members.map Prod.fst)
  | some value => .error (.notIterable value)

def ending (settings : Settings) : Except SettingFault String :=
  match settings.extension with
  | .str text => .ok text
  | value => .error (.noEnding value)

def enumPath (settings : Settings) : Except SettingFault String :=
  match settings.enumDirectory with
  | .str text => .ok text
  | value => .error (.noPath value)

/-- A number of workers is only compared with one, since it does not change any result. -/
def checkWorkers (settings : Settings) : Except SettingFault Unit :=
  match settings.workers.number? with
  | some _ => .ok ()
  | none => .error (.unordered "<=" settings.workers)

/-- The larger of one and a value. -/
def atLeastOne (value : Json) : Except SettingFault Number :=
  match value.number? with
  | some n => .ok (if n.exceedsOne then n else .int 1)
  | none => .error (.unordered ">" value)

end Settings

end RamlSchema
