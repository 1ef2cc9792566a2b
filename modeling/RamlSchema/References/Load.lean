import RamlSchema.Files.Tree
import RamlSchema.Json.Reader
import RamlSchema.References.Resolver
import RamlSchema.Settings.Use

/-!
# Schemas of a directory

The schema documents anywhere below a directory, and the references between them. Files that are no
documents are passed over.
-/

namespace RamlSchema.References

open Files (FileTree Node Path)

def documentOfBytes? (bytes : List UInt8) : Option Json :=
  match Text.Utf8.decode bytes with
  | .ok text => Json.read? text
  | .error _ => none

/-- The document in a file below `root`, if its name says that it is one. A file whose path is too
long is out of reach. -/
def loadNode (root : Path) (rest : List String) : Node → Except Files.Fault (Option LoadedSchema)
  | .directory => .ok none
  | .file bytes =>
    if !Text.endsWith (rest.getLast?.getD "") jsonEnding then .ok none
    else if (root.within rest).isTooLong then
      .error (.system .nameTooLong (root.within rest).text)
    else .ok ((documentOfBytes? bytes).map (LoadedSchema.ofDocument root rest))

/-- The documents below a directory in the order of their paths. -/
def load (tree : FileTree) (root : Path) : Except Files.Fault (List LoadedSchema) := do
  let nodes ← tree.below root
  let loaded ← nodes.mapM fun (rest, node) => loadNode root rest node
  .ok (loaded.filterMap id)

inductive Fault where
  | files (fault : Files.Fault)
  | setting (fault : SettingFault)
  deriving DecidableEq

def Fault.message : Fault → String
  | .files fault => fault.message
  | .setting fault => fault.message

/-- A resolver as the settings ask for it. Its batches have to be counted, but not its workers. -/
def resolverOf (settings : Settings) : Except SettingFault Resolver := do
  let batchSize ← Settings.atLeastOne settings.batchSize
  let workers ← Settings.atLeastOne settings.referenceWorkers
  match batchSize.count? with
  | none => .error (.uncountable settings.batchSize)
  | some batchSize => .ok { batchSize, workers := workers.count?.getD 4 }

def loadResolved (settings : Settings) (tree : FileTree) (root : Path) :
    Except Fault (List LoadedSchema × Stats) := do
  let loaded ← (load tree root).mapError .files
  let resolver ← (resolverOf settings).mapError .setting
  let (schemas, stats, _) := resolver.resolve loaded
  .ok (schemas, stats)

end RamlSchema.References
