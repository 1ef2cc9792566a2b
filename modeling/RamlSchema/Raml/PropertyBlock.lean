import RamlSchema.Raml.Format
import RamlSchema.Raml.Line
import RamlSchema.Report.Finding
import RamlSchema.Text.Quoted

/-!
# Property blocks

The lines below a property's declaration, down to the first that is indented no deeper. Two steps in
stand the facets `description:`, `type:`, `enum:` and `items:`, and four steps in the values of an
enum and the facets of an array's elements. A later facet overrides an earlier one of its kind.
-/

namespace RamlSchema.Raml

open Report (FormatFinding LiftFinding PropertyFinding UnionFinding)

/-- Where a property is declared, and how references are written. -/
structure PropertyContext where
  parent : String
  property : String
  convention : Convention
  isOptional : Bool := false
  deriving DecidableEq, Repr

structure Resolution where
  property : Property
  liftedEnum : Option Declaration := none
  union : Option UnionFinding := none
  format : Option FormatFinding := none
  lift : Option LiftFinding := none
  finding : PropertyFinding
  sourceLines : List String
  deriving DecidableEq, Repr

inductive Facet where
  | description (text : String)
  | type (token : String)
  | enum
  | items (token : String)
  deriving DecidableEq, Repr

def Facet.ofText? (text : String) : Option Facet :=
  if text = "enum:" then some .enum
  else
    ((Line.facet? "description:" text).map .description).or
      (((Line.facet? "type:" text).map .type).or ((Line.facet? "items:" text).map .items))

def liftedName (parent property : String) : String :=
  Naming.typeName parent ++ Naming.typeName property

namespace PropertyBlock

/-- What the lines read so far say. `enumLine` is the number of the last line that says `enum:`. -/
structure Progress where
  property : Property := {}
  enumLine : Option Int := none
  values : List String := []
  union : Option UnionFinding := none
  format : Option FormatFinding := none

/-- The lines of the block under a declaration that is indented by `base`. -/
def lines (base : Int) (following : List Line) : List Line :=
  following.takeWhile fun line => base < line.indent

def itemsOf (convention : Convention) (token : String) : Items :=
  if TypeToken.isUnion token then
    { type := some (.union ((TypeToken.members token).map (TypeToken.memberType convention))) }
  else
    { type := (TypeToken.jsonType? token).map .single
      reference := TypeToken.reference? convention token }

/-- The elements' type that the lines nested under `items:` give. -/
def nestedItems (base : Int) (convention : Convention) (following : List Line) : Option Items :=
  ((following.takeWhile fun line => base + 2 < line.indent).findSome? fun line =>
    if line.indent = base + 4 then Line.facet? "type:" line.text else none).map (itemsOf convention)

/-- A union has no reference, and each of its members has a type of its own. -/
def readUnion (context : PropertyContext) (token : String) (line : Int) (progress : Progress) :
    Progress :=
  let members := TypeToken.members token
  { progress with
    property :=
      { progress.property with
        type := some (.union (members.map (TypeToken.memberType context.convention)))
        reference := none
        token := some token }
    union :=
      some { parent := context.parent, property := context.property, token, members
             line := some line } }

/-- A reference replaces the type. A format once inferred stays unless another takes its place. -/
def readSingle (context : PropertyContext) (token : String) (progress : Progress) : Progress :=
  let reference := TypeToken.reference? context.convention token
  let inference := FormatInference.infer token context.property
  let property :=
    { progress.property with
      type := if reference.isSome then none else (TypeToken.jsonType? token).map .single
      reference
      token := some token }
  if inference.isNotable then
    { progress with
      property := { property with format := inference.format }
      format :=
        some { property := context.property, parent := context.parent, token
               format := inference.format, reason := inference.reason
               confidence := inference.confidence.label } }
  else { progress with property }

def readFacet (base : Int) (context : PropertyContext) (line : Line) (following : List Line)
    (progress : Progress) : Facet → Progress
  | .description description =>
    { progress with property := { progress.property with description } }
  | .type token =>
    if TypeToken.isUnion token then readUnion context token line.number progress
    else readSingle context token progress
  | .enum =>
    { progress with
      property := { progress.property with type := some (.single "string") }
      enumLine := some line.number }
  | .items token =>
    let items :=
      if token.isEmpty then nestedItems base context.convention following
      else some (itemsOf context.convention token)
    { progress with property := { progress.property with items } }

/-- One line of the block, with the lines that follow it. Values are taken from any entry four steps
in, once an `enum:` has been read. -/
def readLine (base : Int) (context : PropertyContext) (line : Line) (following : List Line)
    (progress : Progress) : Progress :=
  if line.indent = base + 2 then
    match Facet.ofText? line.text with
    | some facet => readFacet base context line following progress facet
    | none => progress
  else if progress.enumLine.isSome && line.indent == base + 4 then
    match Line.entry? line.text with
    | some value => { progress with values := progress.values ++ [value] }
    | none => progress
  else progress

def read (base : Int) (context : PropertyContext) (progress : Progress) : List Line → Progress
  | [] => progress
  | line :: following =>
    read base context (readLine base context line following progress) following

def dropStrayItems (property : Property) : Property :=
  if property.type = some (.single "array") then property else { property with items := none }

def shownType : Option TypeKeyword → String
  | none => "None"
  | some (.single name) => name
  | some (.union names) => Text.Quoted.quoteList names

def typeReason? (property : Property) : Option String :=
  match property.token with
  | some token =>
    if property.type = some (.single token) then none
    else
      some ("Mapped RAML type '" ++ token ++ "' to JSON Schema type '" ++
        shownType property.type ++ "'")
  | none => none

def formatReason? (context : PropertyContext) (property : Property) : Option String :=
  if (property.format.getD "").isEmpty then none
  else
    some ("Inferred from RAML type '" ++ property.token.getD "None" ++ "' and property name '" ++
      context.property ++ "'")

def findingOf (context : PropertyContext) (line : Int) (source : List String)
    (property : Property) : PropertyFinding where
  parent := context.parent
  property := context.property
  source := Text.joinWith "\n" source
  token := property.token
  description := property.description
  isOptional := context.isOptional
  line
  type := property.type
  format := property.format
  reference := property.reference
  items := property.items
  formatReason := formatReason? context property
  typeReason := typeReason? property
  note := none

def liftedEnumOf (context : PropertyContext) (values : List String) : Declaration where
  name := liftedName context.parent context.property
  isEnum := true
  values
  description := "Inline enum for " ++ context.parent ++ "." ++ context.property
  origin := some ⟨context.parent, context.property⟩

/-- The values become an enum of their own, and the property refers to it. -/
def lift (context : PropertyContext) (line : Int) (values : List String)
    (resolution : Resolution) : Resolution :=
  let name := liftedName context.parent context.property
  let reference := (Target.enum name).reference context.convention
  { resolution with
    property := { resolution.property with reference := some reference, type := none }
    finding :=
      { resolution.finding with
        reference := some reference
        type := none
        note := some ("Inline enum extracted to " ++ name) }
    liftedEnum := some (liftedEnumOf context values)
    lift :=
      some { parent := context.parent, property := context.property, name, reference, values
             lines := some (line, line + values.length) } }

/-- The property declared on line number `line`, whose text is `declared` where there is such a
line, by the significant lines that follow. -/
def resolve (base : Int) (context : PropertyContext) (line : Int) (declared : Option String)
    (following : List Line) : Resolution :=
  let block := lines base following
  let progress := read base context {} block
  let property := dropStrayItems progress.property
  let sourceLines := declared.toList ++ block.map (·.text)
  let resolution : Resolution :=
    { property, sourceLines, union := progress.union, format := progress.format
      finding := findingOf context line sourceLines property }
  match progress.enumLine with
  | some enumLine =>
    if progress.values.isEmpty then resolution
    else lift context enumLine progress.values resolution
  | none => resolution

/-- The text of the line that stands in front of an index, if there is one. -/
def declaredBefore? (sources : List String) : Int → Option String
  | .ofNat (n + 1) => sources[n]?.map Text.trim
  | _ => none

/-- The property whose block begins at an index into the lines of a file, unless that lies before
the first line. -/
def resolveAt? (sources : List String) (start base : Int) (context : PropertyContext) :
    Option Resolution :=
  (Line.fromIndex? sources start).map fun following =>
    resolve base context start (declaredBefore? sources start)
      (Line.significant (start + 1) following)

end PropertyBlock

end RamlSchema.Raml
