import RamlSchema.Naming

/-!
# Type tokens

What the text behind `type:` means. A scalar token stands for a JSON type. Any other token names a
type of this library, of another library (`library.Name`) or of another file (`!include path`), and
becomes a reference to the file that the named type is written to.
-/

namespace RamlSchema.Raml

inductive Target where
  | enum (name : String)
  | object (name : String)
  deriving DecidableEq, Repr

namespace Target

def enumEnding : String := "Enum.schema.json"

def objectEnding : String := ".schema.json"

/-- The name of the file, with names written by the function `rename`. -/
def fileNameBy (rename : String → String) : Target → String
  | .enum name => rename name ++ enumEnding
  | .object name => rename name ++ objectEnding

def fileName (convention : Convention) (target : Target) : String :=
  target.fileNameBy convention.apply

def enumDirectory : String := "./common/enums/"

/-- The reference to the file, from the directory of the business objects. -/
def reference (convention : Convention) (target : Target) : String :=
  match target with
  | .enum _ => enumDirectory ++ target.fileName convention
  | .object _ => "./" ++ target.fileName convention

end Target

namespace TypeToken

def scalarTypes : List (String × String) :=
  [("string", "string"), ("number", "number"), ("integer", "integer"), ("boolean", "boolean"),
    ("date", "string"), ("date-only", "string"), ("datetime", "string"),
    ("datetime-only", "string"), ("datetime-with-timezone", "string"), ("time", "string"),
    ("time-only", "string"), ("object", "object"), ("array", "array"), ("any", "any")]

def nullTokens : List String := ["nil", "null"]

def includeDirective : String := "!include "

def unionMark : String := " | "

/-- A token without the blanks around it and without one question mark at its end. -/
def clean (token : String) : String := Text.stripSuffix (Text.trim token) "?"

def scalarType? (token : String) : Option String := scalarTypes.lookup (clean token)

def isScalar (token : String) : Bool := (scalarType? token).isSome

/-- The JSON type of a token. A name with a dot has none, because a reference carries its shape, and
a plain name counts as text. -/
def jsonType? (token : String) : Option String :=
  if token.isEmpty then some "string"
  else
    match scalarType? token with
    | some type => some type
    | none => if Text.contains (clean token) "." then none else some "string"

/-- Whether a path leads through a directory of enums. Either slash separates directories. -/
def isEnumPath (path : String) : Bool :=
  (Text.fields (Text.replaceChar path '\\' '/') '/').dropLast.contains "enums"

/-- The type in an included file, which is called after the file. -/
def includeTarget (path : String) : Target :=
  let name := Text.stripSuffix (Text.afterLast path '/') ".raml"
  if isEnumPath path then .enum name else .object name

/-- The type that a plain or dotted name stands for. The libraries whose name starts with `enum`
hold enums, and all others objects. -/
def namedTarget (name : String) : Target :=
  match Text.cut? name "." with
  | some (library, name) => if Text.startsWith library "enum" then .enum name else .object name
  | none => .object name

def target? (token : String) : Option Target :=
  if token.isEmpty || isScalar token then none
  else
    match Text.dropPrefix? (clean token) includeDirective with
    | some path => some (includeTarget (Text.trim path))
    | none => some (namedTarget (clean token))

def reference? (convention : Convention) (token : String) : Option String :=
  (target? token).map (·.reference convention)

/-- The JSON type of one member of a union. What refers into the directory of enums is text, and
every other type is an object. -/
def memberType (convention : Convention) (token : String) : String :=
  if nullTokens.contains (clean token) then "null"
  else
    match scalarType? token with
    | some type => type
    | none =>
      match reference? convention token with
      | some reference =>
        if Text.startsWith reference Target.enumDirectory then "string" else "object"
      | none => "object"

def isUnion (token : String) : Bool := Text.contains token unionMark

def members (token : String) : List String := (Text.split token unionMark).map Text.trim

end TypeToken

end RamlSchema.Raml
