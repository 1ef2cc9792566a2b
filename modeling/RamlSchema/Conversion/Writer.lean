import RamlSchema.Conversion.Fault
import RamlSchema.Files.Change
import RamlSchema.Json.Printer
import RamlSchema.Json.Reader
import RamlSchema.Settings.Basic

/-!
# Written documents

How a document gets into its file. In error mode a file that exists is left alone. A document is
read back before it is written, and an object has to name its dialect.
-/

namespace RamlSchema.Conversion

open Files (FileTree Path)

abbrev Action (α : Type) := Files.Action Fault α

def onFiles {α : Type} (action : Files.Action Files.Fault α) : Action α :=
  action.adaptExcept .files

/-- How output files are treated. `stamp` is the part of a temporary file's name that makes it
new. -/
structure Writer where
  output : OutputSetting := .standard
  stamp : String
  deriving DecidableEq

/-- The mode and whether files are replaced in one step. A value that counts as no stands for the
standard output. -/
def outputInUse : OutputSetting → Except SettingFault (ModeSetting × Bool)
  | .given mode atomic => .ok (mode, atomic.isTruthy)
  | .other value =>
    if value.isTruthy then .error (.noMember value "mode")
    else .ok (.known .force, true)
  | .unset => .error (.unset "output")

/-- Whether reading a document's text gives the document again. What is not a number differs from
itself. -/
def readsBack (document : Json) : Bool :=
  document != .num .nan && Json.read? document.print == some document

def documentFault? (document : Json) : Option Fault :=
  if !readsBack document then some .notReadBack
  else
    match document with
    | .obj _ => if (document.member? "$schema").isNone then some .noDialect else none
    | _ => none

def checkVacant (mode : ModeSetting) (path : Path) : Action Unit := do
  if mode = .known .error then
    match (← get).look path with
    | .ok (some _) => throw (.outputExists path.text)
    | .ok none => pure ()
    | .error fault => throw (.files fault)

/-- Writes bytes to a file after creating the directories around it. -/
def writeBytes (stamp : String) (atomic : Bool) (path : Path) (bytes : List UInt8) :
    Files.Action Files.Fault Unit := do
  Files.ensureDirectories path.parent
  if atomic then Files.writeAtomically stamp path bytes else Files.writeDirectly path bytes

/-- Writes a document and returns the number of bytes. -/
def Writer.write (writer : Writer) (path : Path) (document : Json) (validate : Bool) :
    Action Nat := do
  match outputInUse writer.output with
  | .error fault => throw (.setting fault)
  | .ok (mode, atomic) =>
    checkVacant mode path
    if validate then
      match documentFault? document with
      | some fault => throw fault
      | none => pure ()
    let bytes := Text.Utf8.encode document.print
    onFiles (writeBytes writer.stamp atomic path bytes)
    pure bytes.length

end RamlSchema.Conversion
