import RamlSchema.Command.Parameter
import RamlSchema.Files.Tree
import RamlSchema.Json.Shown
import RamlSchema.Text.Blank
import RamlSchema.Text.Case
import RamlSchema.Text.Digit

/-!
# Values of parameters

What the texts of a command line mean to its parameters, and which of them are refused. Parameters
are looked at one after the other, and the first that is wrong decides.
-/

namespace RamlSchema.Command

open Files (FileTree Path)

inductive Value where
  | missing
  | flag (on : Bool)
  | number (n : Int)
  | text (s : String)
  deriving DecidableEq, Repr

def Value.toJson : Value → Json
  | .missing => .null
  | .flag on => .bool on
  | .number n => .int n
  | .text s => .str s

/-- Why a command does not run: its command line is wrong, a path has a null character in it, a
parameter has a value of a kind that it cannot take, or help is wanted instead. -/
inductive Halt where
  | usage
  | nullCharacter
  | wrongKind
  | help
  deriving DecidableEq, Repr

abbrev Values := Entries String Value

/-! ### Integers -/

/-- The number that digits write, in groups with single underscores between them. -/
def magnitude? (cs : List Char) : Option Nat :=
  let groups := cs.splitOn '_'
  if groups.any List.isEmpty then none else Text.Digit.number? groups.flatten

/-- The blanks around a number. The information separators are not among them. -/
def isNumberBlank (c : Char) : Bool :=
  Text.isBlank c && !(0x1C ≤ c.toNat && c.toNat ≤ 0x1F)

/-- An integer with a sign or without, and perhaps with blanks around it. -/
def integer? (text : String) : Option Int :=
  let unpadded := (text.toList.dropWhile isNumberBlank).reverse.dropWhile isNumberBlank
  match unpadded.reverse with
  | '-' :: digits => (magnitude? digits).map fun n => -(n : Int)
  | '+' :: digits => (magnitude? digits).map Int.ofNat
  | digits => (magnitude? digits).map Int.ofNat

/-! ### Texts -/

namespace Kind

def leads (tree : FileTree) (path : Path) : PathKind → Bool
  | .file => tree.isFile path
  | .directory => tree.isDirectory path
  | .output => !tree.isFile path

def numberValue (least : Option Int) (n : Int) : Except Halt Value :=
  if least.any (n < ·) then .error .usage else .ok (.number n)

/-- The value that a text means. A path is spelled from the root from then on. -/
def ofText (tree : FileTree) (text : String) : Kind → Except Halt Value
  | .flag => .error .usage
  | .text => .ok (.text text)
  | .number least =>
    match integer? text with
    | some n => numberValue least n
    | none => .error .usage
  | .choice labels ignoreCase =>
    let fold := if ignoreCase then Text.Case.lower else id
    match labels.find? fun label => fold label == fold text with
    | some label => .ok (.text label)
    | none => .error .usage
  | .path kind =>
    let path := (Path.ofText text).absolute tree.here
    if (Path.ofText text).hasNull then .error .nullCharacter
    else if leads tree path kind then .ok (.text path.text)
    else .error .usage

/-! ### Values of any kind -/

def switch? (text : String) : Option Bool :=
  let word := Text.Case.lower (Text.trim text)
  if ["1", "true", "t", "yes", "y", "on"].contains word then some true
  else if ["0", "false", "f", "no", "n", "off"].contains word then some false
  else none

def truncated (least : Option Int) : Number → Except Halt Value
  | .int n => numberValue least n
  | .binary x => numberValue least x.truncate
  | .nan => .error .usage
  | .infinity _ => .error .wrongKind

def flagOf : Json → Except Halt Value
  | .bool on => .ok (.flag on)
  | .num n =>
    if n.agrees (.int 0) then .ok (.flag false)
    else if n.agrees (.int 1) then .ok (.flag true)
    else .error .wrongKind
  | .str word => ((switch? word).map fun on => .ok (.flag on)).getD (.error .usage)
  | _ => .error .wrongKind

/-- The value that a parameter takes from a text or from a default, if there is any. A text
parameter takes any value for its text. -/
def ofJson (tree : FileTree) (kind : Kind) (value : Json) : Except Halt Value :=
  match kind, value with
  | _, .null => .ok .missing
  | .flag, value => flagOf value
  | kind, .str word => kind.ofText tree word
  | .number least, .num n => truncated least n
  | .number least, .bool on => numberValue least (if on then 1 else 0)
  | .number _, _ => .error .wrongKind
  | .text, value => .ok (.text value.shown)
  | _, _ => .error .usage

end Kind

/-! ### All parameters -/

namespace Parameter

def fallback : Parameter → Json
  | .argument _ _ _ => .null
  | .option opt => opt.default

def isRequired : Parameter → Bool
  | .argument _ _ isRequired => isRequired
  | .option _ => false

def value (tree : FileTree) (inputs : Entries String Json) (parameter : Parameter) :
    Except Halt Value := do
  let input :=
    match (inputs.get? parameter.name).getD .null with
    | .null => parameter.fallback
    | input => input
  let value ← parameter.kind.ofJson tree input
  if parameter.isRequired && value == .missing then .error .usage else .ok value

/-- Help comes before everything else. -/
def checkHelp (tree : FileTree) (parameters : List Parameter) (inputs : Entries String Json) :
    Except Halt Unit :=
  match help? parameters with
  | none => .ok ()
  | some opt =>
    match (Parameter.option opt).value tree inputs with
    | .ok (.flag true) => .error .help
    | .ok _ => .ok ()
    | .error halt => .error halt

/-- The values of all parameters that are not hidden. No text may be left over in the end. -/
def bind (tree : FileTree) (parameters : List Parameter) (given : Given) : Except Halt Values := do
  let inputs := inputs parameters given
  checkHelp tree parameters inputs
  let values ← (inOrder parameters given).mapM fun parameter =>
    (parameter.value tree inputs).map fun value => (parameter, value)
  if (arguments parameters).length < given.arguments.length then .error .usage
  else
    .ok ((values.filter fun (parameter, _) => !parameter.isHidden).foldl
      (fun values (parameter, value) => Entries.put values parameter.name value) [])

def parse (tree : FileTree) (parameters : List Parameter) (words : List String) :
    Except Halt Values :=
  match readWords parameters true words with
  | none => .error .usage
  | some given => bind tree parameters given

end Parameter

end RamlSchema.Command
