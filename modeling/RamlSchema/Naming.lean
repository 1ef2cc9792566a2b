import RamlSchema.Text.Basic
import RamlSchema.Text.Blank
import RamlSchema.Text.Case

/-!
# Naming conventions

The four ways of writing the words of a name. Word boundaries are hyphens, underscores, blanks and
the step from a small letter or digit to a capital.
-/

namespace RamlSchema

inductive Convention where
  | kebab
  | camel
  | pascal
  | snake
  deriving DecidableEq, Repr

namespace Naming

def isHyphenOrLow (c : Char) : Bool := c == '-' || c == '_'

def isSeparator (c : Char) : Bool := isHyphenOrLow c || Text.isBlank c

/-- Whether a word ends at `a` and the next one starts with the capital `b`. -/
def isHump (a b : Char) : Bool := (a.isLower || a.isDigit) && b.isUpper

/-- `mark` between every two characters at which a word ends and the next one starts. -/
def splitHumps (mark : Char) : List Char → List Char
  | a :: b :: rest =>
    if isHump a b then a :: mark :: splitHumps mark (b :: rest)
    else a :: splitHumps mark (b :: rest)
  | cs => cs

/-- One `mark` for every run of characters of a kind. `within` says that a run has been marked. -/
def collapse (kind : Char → Bool) (mark : Char) (within : Bool) : List Char → List Char
  | [] => []
  | c :: cs =>
    if kind c then (if within then [] else [mark]) ++ collapse kind mark true cs
    else c :: collapse kind mark false cs

/-- The words without their separators, each but the first with a capital. `pending` says that a
separator has just been dropped. -/
def joinWords (pending : Bool) : List Char → List Char
  | [] => []
  | c :: cs =>
    if isSeparator c then joinWords true cs
    else (if pending then Text.Case.upperChar c else [c]) ++ joinWords false cs

def mapFirst (f : Char → List Char) : List Char → List Char
  | [] => []
  | c :: cs => f c ++ cs

def kebabChars (cs : List Char) : List Char :=
  collapse (fun c => c == '_' || Text.isBlank c) '-' false
    (Text.Case.lowerChars (splitHumps '-' cs))

def snakeChars (cs : List Char) : List Char :=
  collapse (fun c => c == '-' || Text.isBlank c) '_' false
    (Text.Case.lowerChars (splitHumps '_' cs))

def camelChars (cs : List Char) : List Char := mapFirst Text.Case.lowerChar (joinWords false cs)

def pascalChars (cs : List Char) : List Char := mapFirst Text.Case.upperChar (joinWords false cs)

/-- A hyphen or underscore before a small letter is dropped, and the letter becomes a capital. -/
def joinSegments : List Char → List Char
  | a :: b :: rest =>
    if isHyphenOrLow a && b.isLower then b.toUpper :: joinSegments rest
    else a :: joinSegments (b :: rest)
  | cs => cs

def typeNameChars : List Char → List Char
  | [] => []
  | c :: cs => Text.Case.upperChar c ++ joinSegments cs

/-- The name of a type that is called after a file or a property: a capital first, and a capital
for every small letter behind a hyphen or an underscore. -/
def typeName (s : String) : String := .ofList (typeNameChars s.toList)

end Naming

namespace Convention

def all : List Convention := [.kebab, .camel, .pascal, .snake]

def label : Convention → String
  | .kebab => "kebab-case"
  | .camel => "camelCase"
  | .pascal => "PascalCase"
  | .snake => "snake_case"

def ofLabel? (label : String) : Option Convention := all.find? (·.label == label)

def applyChars : Convention → List Char → List Char
  | .kebab => Naming.kebabChars
  | .camel => Naming.camelChars
  | .pascal => Naming.pascalChars
  | .snake => Naming.snakeChars

def apply (convention : Convention) (name : String) : String :=
  .ofList (convention.applyChars name.toList)

/-- The name written as a label asks for. A label of no convention leaves names as they are. -/
def applyLabel (label : String) : String → String :=
  match ofLabel? label with
  | some convention => convention.apply
  | none => id

end Convention

end RamlSchema
