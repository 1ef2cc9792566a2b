import RamlSchema.Json.Basic
import RamlSchema.Text.Basic

/-!
# Command parameters

The arguments and options that a command takes, and the texts that a command line gives them.
Options may stand between the arguments of a command, and the last of several texts counts.
-/

namespace RamlSchema.Command

/-- What a path has to lead to: a file, a directory, or a directory that may still be missing. -/
inductive PathKind where
  | file
  | directory
  | output
  deriving DecidableEq, Repr

/-- What a parameter takes: nothing, any text, an integer with a least value, one of some labels, or
a path. -/
inductive Kind where
  | flag
  | text
  | number (least : Option Int)
  | choice (labels : List String) (ignoreCase : Bool)
  | path (kind : PathKind)
  deriving DecidableEq, Repr

/-- An option under all its spellings, and under those that switch it off. Its default is a value of
any kind, which is read like a text from the command line. A hidden option is accepted and then
forgotten. -/
structure CommandOption where
  spellings : List String
  offSpellings : List String := []
  name : String
  kind : Kind := .text
  default : Json := .null
  isHidden : Bool := false
  deriving DecidableEq, Repr

inductive Parameter where
  | argument (name : String) (kind : Kind) (isRequired : Bool)
  | option (opt : CommandOption)
  deriving DecidableEq, Repr

namespace Parameter

def name : Parameter → String
  | .argument name _ _ => name
  | .option opt => opt.name

def kind : Parameter → Kind
  | .argument _ kind _ => kind
  | .option opt => opt.kind

def isArgument : Parameter → Bool
  | .argument _ _ _ => true
  | .option _ => false

def isHidden : Parameter → Bool
  | .argument _ _ _ => false
  | .option opt => opt.isHidden

end Parameter

namespace CommandOption

/-- The option that every command has, unless another one takes its spelling. -/
def help : CommandOption :=
  { spellings := ["--help"], name := "help", kind := .flag, default := .bool false
    isHidden := true }

def allSpellings (opt : CommandOption) : List String := opt.spellings ++ opt.offSpellings

/-- What a flag says where it stands. Without a spelling that switches it off, it says the opposite
of its default. -/
def flagValue (opt : CommandOption) (spelling : String) : Json :=
  if opt.offSpellings.isEmpty then .bool (!opt.default.isTruthy)
  else .bool (!opt.offSpellings.contains spelling)

end CommandOption

/-- What a command line gives to options, and the texts that stand for themselves. -/
structure Given where
  options : List (CommandOption × Json) := []
  arguments : List String := []
  deriving DecidableEq, Repr

def Given.addOptions (given : Given) (options : List (CommandOption × Json)) : Given :=
  { given with options := options ++ given.options }

def Given.addArgument (given : Given) (argument : String) : Given :=
  { given with arguments := argument :: given.arguments }

namespace Parameter

def options (parameters : List Parameter) : List CommandOption :=
  parameters.filterMap fun
    | .argument _ _ _ => none
    | .option opt => some opt

def arguments (parameters : List Parameter) : List Parameter :=
  parameters.filter isArgument

def help? (parameters : List Parameter) : Option CommandOption :=
  if (options parameters).any fun opt =>
      opt.allSpellings.any (CommandOption.help.spellings.contains ·)
  then none else some .help

/-! ### Spellings -/

/-- The sign that a spelling starts with, or two of them. -/
def lead : List Char → List Char
  | a :: b :: _ => if a = b then [a, b] else [a]
  | cs => cs

/-- A sign and one other character. Such spellings can be written behind one sign. -/
def isShort (spelling : String) : Bool :=
  spelling.length == 2 && (lead spelling.toList).length == 1

/-- How the words start that are taken for options. -/
def leads (parameters : List Parameter) : List (List Char) :=
  [['-'], ['-', '-']] ++
    ((options parameters).flatMap (·.allSpellings)).flatMap fun spelling =>
      let start := lead spelling.toList
      if isShort spelling then [start] else [start.take 1, start]

/-- The option that a spelling belongs to, which is the last where several have it. -/
def withSpelling? (parameters : List Parameter) (spelling : String) : Option CommandOption :=
  (options parameters ++ (help? parameters).toList).reverse.find? (·.allSpellings.contains spelling)

/-! ### Words -/

/-- The options in the characters behind one sign. The first that takes a value takes the rest as
its value, and is left over if there is no rest. -/
def readShort (parameters : List Parameter) (sign : Char) :
    List Char → Option (List (CommandOption × Json) × Option CommandOption)
  | [] => some ([], none)
  | c :: cs =>
    let spelling := String.ofList [sign, c]
    match if isShort spelling then withSpelling? parameters spelling else none with
    | none => none
    | some opt =>
      if opt.kind = .flag then
        (readShort parameters sign cs).map fun (given, open?) =>
          ((opt, opt.flagValue spelling) :: given, open?)
      else if cs.isEmpty then some ([], some opt)
      else some ([(opt, .str (.ofList cs))], none)

/-- An option with its value behind an equals sign, or an option whose value may follow. -/
def readLong (opt : CommandOption) (spelling : String) (value : Option String) :
    Option (List (CommandOption × Json) × Option CommandOption) :=
  match value, opt.kind with
  | none, .flag => some ([(opt, opt.flagValue spelling)], none)
  | some _, .flag => none
  | some value, _ => some ([(opt, .str value)], none)
  | none, _ => some ([], some opt)

/-- The options in one word of the command line, and the one that still wants a value. -/
def readWord (parameters : List Parameter) (word : String) :
    Option (List (CommandOption × Json) × Option CommandOption) :=
  let (spelling, value) :=
    match Text.cut? word "=" with
    | some (spelling, value) => (spelling, some value)
    | none => (word, none)
  match if isShort spelling then none else withSpelling? parameters spelling with
  | some opt => readLong opt spelling value
  | none =>
    match word.toList with
    | [] => none
    | sign :: rest =>
      if (leads parameters).contains (sign :: rest.take 1) then none
      else readShort parameters sign rest

def isOptionWord (parameters : List Parameter) (word : String) : Bool :=
  1 < word.length && (leads parameters).contains (word.toList.take 1)

/-- The words of a command line. Two dashes end the options, and so does the first argument unless
options may be `mixed` with arguments. -/
def readWords (parameters : List Parameter) (mixed : Bool) : List String → Option Given
  | [] => some {}
  | word :: words =>
    if word = "--" then some { arguments := words }
    else if isOptionWord parameters word then
      match readWord parameters word with
      | none => none
      | some (options, none) => (readWords parameters mixed words).map (·.addOptions options)
      | some (options, some opt) =>
        match words with
        | [] => none
        | value :: words =>
          (readWords parameters mixed words).map (·.addOptions (options ++ [(opt, .str value)]))
    else if mixed then (readWords parameters mixed words).map (·.addArgument word)
    else some { arguments := word :: words }

/-! ### What each parameter is given -/

def argumentTexts : List Parameter → List String → List (Parameter × Option String)
  | [], _ => []
  | parameter :: parameters, [] => (parameter, none) :: argumentTexts parameters []
  | parameter :: parameters, text :: texts =>
    (parameter, some text) :: argumentTexts parameters texts

/-- What a name is given last. Parameters of one name share it, and an argument comes after all
options even if there is no text for it. -/
def inputs (parameters : List Parameter) (given : Given) : Entries String Json :=
  let options := given.options.map fun (opt, value) => (opt.name, value)
  let arguments := (argumentTexts (arguments parameters) given.arguments).map fun (p, text) =>
    (p.name, Json.optional text)
  (options ++ arguments).foldl (fun inputs (name, value) => Entries.put inputs name value) []

/-- All parameters in the order in which they are looked at: the options that are given, the
arguments, and the other options. -/
def inOrder (parameters : List Parameter) (given : Given) : List Parameter :=
  let named := ((given.options.map Prod.fst).eraseDups.filter (· != .help)).map .option
  named ++ arguments parameters ++
    parameters.filter fun p => !p.isArgument && !named.contains p

end Parameter

end RamlSchema.Command
