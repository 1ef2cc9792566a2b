import RamlSchema.Text.Basic
import RamlSchema.Text.Blank

/-!
# Source lines

A line of a source file is its indentation and the text behind it. Blank lines and comments are
invisible to everything that reads types.
-/

namespace RamlSchema.Raml

/-- A line with its number in the file, counted from one. Lines that are numbered back from the end
of a file have zero and less. -/
structure Line where
  number : Int
  indent : Nat
  text : String
  deriving DecidableEq, Repr

namespace Line

def ofSource (number : Int) (source : String) : Line :=
  ⟨number, Text.indentation source, Text.trim source⟩

def isSkipped (text : String) : Bool := text.isEmpty || Text.startsWith text "#"

def numbered (first : Int) : List String → List Line
  | [] => []
  | source :: sources => ofSource first source :: numbered (first + 1) sources

/-- The lines that are neither blank nor comments, where the first of `sources` has the number
`first`. -/
def significant (first : Int) (sources : List String) : List Line :=
  (numbered first sources).filter fun line => !isSkipped line.text

/-- The lines from an index on. A negative index counts from the end, and the first line follows the
last one then. Nothing lies before the first line. -/
def fromIndex? (sources : List String) : Int → Option (List String)
  | .ofNat n => some (sources.drop n)
  | .negSucc n =>
    if n < sources.length then some (sources.drop (sources.length - (n + 1)) ++ sources) else none

/-- The text of an entry in a list without its first two characters, the blanks around it and all
quotes. -/
def entryValue (text : String) : String :=
  let value := Text.trimChars (text.toList.drop 2)
  .ofList (value.filter fun c => c != Char.ofNat 0x22 && c != Char.ofNat 0x27)

def entry? (text : String) : Option String :=
  if Text.startsWith text "- " then some (entryValue text) else none

def facet? (name text : String) : Option String := (Text.dropPrefix? text name).map Text.trim

def heading? (text : String) : Option String := (Text.dropSuffix? text ":").map Text.trim

end Line

end RamlSchema.Raml
