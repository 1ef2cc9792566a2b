import RamlSchema.Raml.Header
import RamlSchema.Raml.ParseError
import RamlSchema.Raml.PropertyBlock
import RamlSchema.Text.Lines

/-!
# Source files

The types that a source file declares. In a library they stand under `types:`, each two steps in,
with facets at four and properties or values at six. In the other format the facets of the only type
stand at the margin, and its properties or values two steps in. Enums lifted out of properties
follow the declared types.
-/

namespace RamlSchema.Raml

open Report (Findings)

structure Parsed where
  format : SourceFormat
  types : List Declaration
  header : Header
  findings : Findings
  deriving DecidableEq, Repr

def Resolution.findings (resolution : Resolution) : Findings where
  properties := [resolution.finding]
  unions := resolution.union.toList
  formats := resolution.format.toList
  lifts := resolution.lift.toList

/-- The name in a property's heading, and whether a question mark makes it optional. -/
def propertyName (heading : String) : String × Bool :=
  match Text.dropSuffix? heading "?" with
  | some name => (name, true)
  | none => (heading, false)

def resolveHeading (convention : Convention) (parent heading : String) (line : Line)
    (following : List Line) : Resolution :=
  let (name, isOptional) := propertyName heading
  PropertyBlock.resolve line.indent ⟨parent, name, convention, isOptional⟩ line.number
    (some line.text) following

def Declaration.addResolution (declaration : Declaration) (heading : String)
    (resolution : Resolution) : Declaration :=
  let (name, isOptional) := propertyName heading
  declaration.addProperty name resolution.property isOptional

def Declaration.addEntry (declaration : Declaration) (text : String) : Declaration :=
  match Line.entry? text with
  | some value => { declaration with values := declaration.values ++ [value] }
  | none => declaration

/-! ### Libraries -/

namespace Library

/-- What has been read of a library: the types that are complete, the one that is being read, and
the enums lifted so far. `inTypes` says that the lines stand under `types:`. -/
structure Progress where
  inTypes : Bool := false
  current : Option Declaration := none
  done : List Declaration := []
  lifted : List Declaration := []
  findings : Findings := {}

def Progress.close (progress : Progress) : Progress :=
  { progress with done := progress.done ++ progress.current.toList, current := none }

/-- A line at the margin starts the list of types or ends it. -/
def readSection (line : Line) (progress : Progress) : Progress :=
  if line.text = "types:" then { progress with inTypes := true }
  else if progress.inTypes then { progress.close with inTypes := false }
  else progress

def readFacet (line : Line) (type : Declaration) : Declaration :=
  match Line.facet? "description:" line.text with
  | some description => { type with description }
  | none => if Text.startsWith line.text "enum:" then { type with isEnum := true } else type

/-- A line at the depth of properties and values. It is a value in an enum, and a property
otherwise. -/
def readMember (convention : Convention) (line : Line) (following : List Line)
    (type : Declaration) (progress : Progress) : Progress :=
  if type.isEnum then { progress with current := some (type.addEntry line.text) }
  else
    match Line.heading? line.text with
    | none => progress
    | some heading =>
      let resolution := resolveHeading convention type.name heading line following
      { progress with
        current := some (type.addResolution heading resolution)
        lifted := progress.lifted ++ resolution.liftedEnum.toList
        findings := progress.findings ++ resolution.findings }

def readBody (convention : Convention) (line : Line) (following : List Line)
    (type : Declaration) (progress : Progress) : Progress :=
  if line.indent = 4 then { progress with current := some (readFacet line type) }
  else if line.indent = 6 then readMember convention line following type progress
  else progress

def readLine (convention : Convention) (line : Line) (following : List Line)
    (progress : Progress) : Progress :=
  if line.indent = 0 then readSection line progress
  else if !progress.inTypes then progress
  else
    match if line.indent = 2 then Line.heading? line.text else none with
    | some name => { progress.close with current := some { name } }
    | none =>
      match progress.current with
      | some type => readBody convention line following type progress
      | none => progress

def read (convention : Convention) (progress : Progress) : List Line → Progress
  | [] => progress
  | line :: following =>
    read convention (readLine convention line following progress) following

def types (convention : Convention) (lines : List Line) : List Declaration × Findings :=
  let progress := (read convention {} lines).close
  (progress.done ++ progress.lifted, progress.findings)

end Library

/-! ### Files of a single type -/

namespace SingleType

inductive Section where
  | none
  | enum
  | properties
  deriving DecidableEq, Repr

structure Progress where
  type : Declaration
  inside : Section := .none
  lifted : List Declaration := []
  findings : Findings := {}

def readFacet (line : Line) (progress : Progress) : Progress :=
  match Line.facet? "description:" line.text with
  | some description => { progress with type := { progress.type with description } }
  | none =>
    if line.text = "enum:" then
      { progress with type := { progress.type with isEnum := true }, inside := .enum }
    else if line.text = "properties:" then { progress with inside := .properties }
    else progress

def readMember (convention : Convention) (line : Line) (following : List Line)
    (progress : Progress) : Progress :=
  match progress.inside with
  | .none => progress
  | .enum => { progress with type := progress.type.addEntry line.text }
  | .properties =>
    match Line.heading? line.text with
    | none => progress
    | some heading =>
      let resolution := resolveHeading convention progress.type.name heading line following
      { progress with
        type := progress.type.addResolution heading resolution
        lifted := progress.lifted ++ resolution.liftedEnum.toList
        findings := progress.findings ++ resolution.findings }

def readLine (convention : Convention) (line : Line) (following : List Line)
    (progress : Progress) : Progress :=
  if line.indent = 0 then readFacet line progress
  else if line.indent = 2 then readMember convention line following progress
  else progress

def read (convention : Convention) (progress : Progress) : List Line → Progress
  | [] => progress
  | line :: following =>
    read convention (readLine convention line following progress) following

def types (convention : Convention) (stem : String) (lines : List Line) :
    List Declaration × Findings :=
  let progress := read convention { type := { name := Naming.typeName stem } } lines
  (progress.type :: progress.lifted, progress.findings)

end SingleType

/-! ### Any source file -/

namespace Source

/-- A line whose indentation has a tab in it. Blank lines and comments may. -/
def hasTab (source : String) : Bool :=
  !Line.isSkipped (Text.trim source) && (source.toList.takeWhile Text.isBlank).contains '\t'

def firstTab? (sources : List String) : Option Nat := (sources.findIdx? hasTab).map (· + 1)

def typesOf (convention : Convention) (format : SourceFormat) (stem : String)
    (sources : List String) : List Declaration × Findings :=
  let lines := Line.significant 1 sources
  match format with
  | .library => Library.types convention lines
  | .dataType => SingleType.types convention stem lines

/-- The types in a file of the given stem. `source` is the path that an error names. -/
def parse (convention : Convention) (content stem : String) (source : Option String) :
    Except ParseError Parsed :=
  let sources := Text.lines content
  match firstTab? sources with
  | some line => .error (.tabIndentation source line)
  | none =>
    let format := SourceFormat.ofContent content
    let (types, findings) := typesOf convention format stem sources
    .ok { format, types, header := Header.ofLines sources, findings }

end Source

end RamlSchema.Raml
