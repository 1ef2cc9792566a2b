import RamlSchema.Command.Value

/-!
# Shown command lines

A command line as a report shows it: the program, the command, the arguments, and those options that
differ from their defaults. What exists as a file or a directory is shown by its name, so that every
text is looked for, and one that is too long for a name cannot be shown.
-/

namespace RamlSchema.Command

open Files (FileTree Path)

def programName : String := "raml_to_json_schema"

def shownText (tree : FileTree) (text : String) : Except Files.Fault String :=
  let path := Path.ofText text
  (tree.look path).map fun node? => if node?.isSome then path.name else text

/-- The text of a value, unless there is nothing to show. -/
def shownValue (tree : FileTree) : Value → Except Files.Fault (Option String)
  | .missing => .ok none
  | .flag on => .ok (if on then some "True" else none)
  | .number n => .ok (some (Text.Decimal.int n))
  | .text s => if s.isEmpty then .ok none else (shownText tree s).map some

/-- The words that show a parameter, where its value is shown as `text`. -/
def shownWords (value : Value) (text : String) : Parameter → List String
  | .argument _ _ _ => [text]
  | .option opt =>
    let spelling := opt.spellings.headD ("--" ++ opt.name)
    if value.toJson.agrees opt.default then []
    else if opt.kind = .flag then [spelling]
    else [spelling, text]

def shownParameter (tree : FileTree) (values : Values) (parameter : Parameter) :
    Except Files.Fault (List String) :=
  match Entries.get? values parameter.name with
  | none => .ok []
  | some value =>
    (shownValue tree value).map fun
      | some text => shownWords value text parameter
      | none => []

/-- The command line of a program, which is its name where no command is running. Arguments come
before options. -/
def shownLine (tree : FileTree) (program : String) (command : Option String)
    (parameters : List Parameter) (values : Values) : Except Files.Fault String := do
  let shown ← parameters.mapM fun parameter =>
    (shownParameter tree values parameter).map fun words => (parameter, words)
  let (arguments, options) := shown.partition fun (parameter, _) => parameter.isArgument
  .ok (Text.joinWith " "
    (program :: command.toList ++ arguments.flatMap Prod.snd ++ options.flatMap Prod.snd))

end RamlSchema.Command
