import RamlSchema.Proofs.Raml.Rows

/-!
# Outlines of source files

What a source file in the fixed layout says, and how it is written down. Types stand two steps in
under `types:`, or their facets at the margin in a file of a single type. Each level is two steps
deeper than the one above it. A property has at most one facet of each kind, in any order.
-/

namespace RamlSchema.Raml

/-! ### Properties -/

/-- No quotation mark and no apostrophe. -/
def IsUnquoted (text : String) : Prop :=
  ∀ c ∈ text.toList, c ≠ Char.ofNat 0x22 ∧ c ≠ Char.ofNat 0x27

instance (text : String) : Decidable (IsUnquoted text) :=
  List.decidableBAll (fun c => c ≠ Char.ofNat 0x22 ∧ c ≠ Char.ofNat 0x27) text.toList

/-- A value in the list of an enum, written without quotes. -/
structure Value extends Phrase where
  nonempty : text ≠ ""
  unquoted : IsUnquoted text

inductive FacetKind where
  | description
  | type
  | enum
  | items
  deriving DecidableEq, Repr

/-- A facet of a property. The type of an array's elements stands behind `items:` or under it. -/
inductive PropertyFacet where
  | description (text : Phrase)
  | type (token : Phrase)
  | enum (values : List Value) (nonempty : values ≠ [])
  | items (token : Phrase) (nonempty : token.text ≠ "")
  | nestedItems (token : Phrase)

def valueRows (indent : Nat) (values : List Value) : List Row :=
  values.map fun value => ⟨indent, "- " ++ value.text⟩

namespace PropertyFacet

def kind : PropertyFacet → FacetKind
  | .description _ => .description
  | .type _ => .type
  | .enum _ _ => .enum
  | .items _ _ | .nestedItems _ => .items

def description? : PropertyFacet → Option String
  | .description text => some text.text
  | _ => none

def token? : PropertyFacet → Option String
  | .type token => some token.text
  | _ => none

def items? : PropertyFacet → Option String
  | .items token _ | .nestedItems token => some token.text
  | _ => none

def values : PropertyFacet → List String
  | .enum values _ => values.map (·.text)
  | _ => []

def rows (indent : Nat) : PropertyFacet → List Row
  | .description text => [.keyed indent "description:" text]
  | .type token => [.keyed indent "type:" token]
  | .enum values _ => ⟨indent, "enum:"⟩ :: valueRows (indent + 2) values
  | .items token _ => [.keyed indent "items:" token]
  | .nestedItems token => [⟨indent, "items:"⟩, .keyed (indent + 2) "type:" token]

end PropertyFacet

def markedName (name : String) (isOptional : Bool) : String :=
  if isOptional then name ++ "?" else name

structure PropertyOutline where
  name : String
  isOptional : Bool
  facets : List PropertyFacet
  trimmed : Text.trim (markedName name isOptional) = markedName name isOptional
  unbroken : Text.IsUnbroken name
  uncommented : name.toList.head? ≠ some '#'
  unmarked : isOptional = false → Text.dropSuffix? name "?" = none
  distinct : (facets.map (·.kind)).Nodup

/-- The type that a token stands for. A reference takes its place. -/
def tokenType (convention : Convention) (token : String) : Option TypeKeyword :=
  if TypeToken.isUnion token then
    some (.union ((TypeToken.members token).map (TypeToken.memberType convention)))
  else if (TypeToken.reference? convention token).isSome then none
  else (TypeToken.jsonType? token).map .single

def tokenReference? (convention : Convention) (token : String) : Option String :=
  if TypeToken.isUnion token then none else TypeToken.reference? convention token

def tokenFormat? (property token : String) : Option String :=
  if TypeToken.isUnion token then none else (FormatInference.infer token property).format

namespace PropertyOutline

def rows (indent : Nat) (outline : PropertyOutline) : List Row :=
  ⟨indent, markedName outline.name outline.isOptional ++ ":"⟩ ::
    outline.facets.flatMap (·.rows (indent + 2))

def token? (outline : PropertyOutline) : Option String :=
  outline.facets.findSome? PropertyFacet.token?

def items? (convention : Convention) (outline : PropertyOutline) : Option Items :=
  (outline.facets.findSome? PropertyFacet.items?).map (PropertyBlock.itemsOf convention)

def values (outline : PropertyOutline) : List String :=
  outline.facets.flatMap PropertyFacet.values

/-- The property as its facets say, its enum left aside. Only an array has elements. -/
def plainProperty (convention : Convention) (outline : PropertyOutline) : Property :=
  let type := (outline.token?.map (tokenType convention)).getD (some (.single "string"))
  { type
    description := (outline.facets.findSome? PropertyFacet.description?).getD ""
    format := outline.token?.bind (tokenFormat? outline.name)
    items := if type = some (.single "array") then outline.items? convention else none
    reference := outline.token?.bind (tokenReference? convention)
    token := outline.token? }

/-- The property that the outline declares. A reference to the enum takes the place of the type. -/
def property (convention : Convention) (parent : String) (outline : PropertyOutline) : Property :=
  if outline.values = [] then outline.plainProperty convention
  else
    { outline.plainProperty convention with
      type := none
      items := none
      reference := some ((Target.enum (liftedName parent outline.name)).reference convention) }

/-- The enum in the property, as a declaration of its own. -/
def lifted (parent : String) (outline : PropertyOutline) : List Declaration :=
  if outline.values = [] then []
  else
    [{ name := liftedName parent outline.name
       isEnum := true
       values := outline.values
       description := "Inline enum for " ++ parent ++ "." ++ outline.name
       origin := some ⟨parent, outline.name⟩ }]

end PropertyOutline

/-! ### Types -/

inductive Members where
  | none
  | enum (values : List Value)
  | properties (properties : List PropertyOutline) (distinct : (properties.map (·.name)).Nodup)

namespace Members

def isEnum : Members → Bool
  | .enum _ => true
  | _ => false

def values : Members → List String
  | .enum values => values.map (·.text)
  | _ => []

def outlines : Members → List PropertyOutline
  | .properties outlines _ => outlines
  | _ => []

def rows (indent : Nat) : Members → List Row
  | .none => []
  | .enum values => ⟨indent, "enum:"⟩ :: valueRows (indent + 2) values
  | .properties outlines _ => ⟨indent, "properties:"⟩ :: outlines.flatMap (·.rows (indent + 2))

end Members

/-- The facets of a type. The description stands in front of the members or behind them. -/
structure TypeOutline where
  description : Option Phrase
  describedLast : Bool
  members : Members

namespace TypeOutline

def descriptionRows (indent : Nat) (outline : TypeOutline) : List Row :=
  outline.description.toList.map (Row.keyed indent "description:")

def rows (indent : Nat) (outline : TypeOutline) : List Row :=
  if outline.describedLast then outline.members.rows indent ++ outline.descriptionRows indent
  else outline.descriptionRows indent ++ outline.members.rows indent

def declaration (convention : Convention) (name : String) (outline : TypeOutline) :
    Declaration where
  name
  properties := outline.members.outlines.map fun o => (o.name, o.property convention name)
  required := (outline.members.outlines.filter (!·.isOptional)).map (·.name)
  isEnum := outline.members.isEnum
  values := outline.members.values
  description := (outline.description.map (·.text)).getD ""

def lifted (name : String) (outline : TypeOutline) : List Declaration :=
  outline.members.outlines.flatMap (·.lifted name)

end TypeOutline

/-- A type of a library with its name. -/
structure NamedOutline extends TypeOutline where
  name : Phrase
  uncommented : name.text.toList.head? ≠ some '#'

def NamedOutline.rows (outline : NamedOutline) : List Row :=
  ⟨2, outline.name.text ++ ":"⟩ :: outline.toTypeOutline.rows 4

/-! ### Files -/

def fileText (format : SourceFormat) (rows : List Row) : String :=
  Text.unlines (format.marker :: rows.map Row.source)

def libraryText (types : List NamedOutline) : String :=
  fileText .library (⟨0, "types:"⟩ :: types.flatMap (·.rows))

def singleTypeText (type : TypeOutline) : String := fileText .dataType (type.rows 0)

/-- A file of a single type is none that says that it is a library. -/
inductive SourceOutline where
  | library (types : List NamedOutline)
  | singleType (type : TypeOutline)
      (unmarked : Text.contains (singleTypeText type) SourceFormat.library.marker = false)

namespace SourceOutline

def text : SourceOutline → String
  | .library types => libraryText types
  | .singleType type _ => singleTypeText type

/-- The types with their names. The only type of a file is called after the file. -/
def named (stem : String) : SourceOutline → List (String × TypeOutline)
  | .library types => types.map fun type => (type.name.text, type.toTypeOutline)
  | .singleType type _ => [(Naming.typeName stem, type)]

/-- The declarations in the order in which they are written, and behind them the lifted enums in
the order of their properties. -/
def types (convention : Convention) (stem : String) (outline : SourceOutline) : List Declaration :=
  (outline.named stem).map (fun (name, type) => type.declaration convention name) ++
    (outline.named stem).flatMap (fun (name, type) => type.lifted name)

def properties : SourceOutline → List PropertyOutline
  | .library types => types.flatMap (·.members.outlines)
  | .singleType type _ => type.members.outlines

end SourceOutline

/-! ### Every row is read as it is written -/

theorem isPlain_valueRows {indent : Nat} {values : List Value} :
    ∀ row ∈ valueRows indent values, IsPlain row.text := by
  intro row hrow
  obtain ⟨value, -, rfl⟩ := List.mem_map.mp hrow
  have hlead : IsPlain "-" := by decide
  exact hlead.append_phrase value.toPhrase value.nonempty

theorem PropertyFacet.isPlain_rows (indent : Nat) (facet : PropertyFacet) :
    ∀ row ∈ facet.rows indent, IsPlain row.text := by
  intro row hrow
  cases facet with
  | description text =>
    rw [List.mem_singleton.mp hrow]
    exact Row.isPlain_keyed (by decide) text
  | type token =>
    rw [List.mem_singleton.mp hrow]
    exact Row.isPlain_keyed (by decide) token
  | enum values hne =>
    rcases List.mem_cons.mp hrow with rfl | hvalue
    · exact (by decide : IsPlain "enum:")
    · exact isPlain_valueRows row hvalue
  | items token hne =>
    rw [List.mem_singleton.mp hrow]
    exact Row.isPlain_keyed (by decide) token
  | nestedItems token =>
    rcases List.mem_cons.mp hrow with rfl | hnested
    · exact (by decide : IsPlain "items:")
    · rw [List.mem_singleton.mp hnested]
      exact Row.isPlain_keyed (by decide) token

theorem PropertyOutline.head?_markedName (outline : PropertyOutline) :
    (markedName outline.name outline.isOptional).toList.head? ≠ some '#' := by
  rw [markedName]
  split
  · rw [String.toList_append, List.head?_append]
    cases hhead : outline.name.toList.head? with
    | none => decide
    | some c => simpa [hhead] using outline.uncommented
  · exact outline.uncommented

theorem PropertyOutline.isUnbroken_markedName (outline : PropertyOutline) :
    Text.IsUnbroken (markedName outline.name outline.isOptional) := by
  rw [markedName]
  split
  · exact Text.isUnbroken_append.mpr ⟨outline.unbroken, by decide⟩
  · exact outline.unbroken

theorem PropertyOutline.isPlain_rows (indent : Nat) (outline : PropertyOutline) :
    ∀ row ∈ outline.rows indent, IsPlain row.text := by
  intro row hrow
  rcases List.mem_cons.mp hrow with rfl | hfacet
  · exact IsPlain.heading ⟨_, outline.trimmed, outline.isUnbroken_markedName⟩
      outline.head?_markedName
  · obtain ⟨facet, -, hrow⟩ := List.mem_flatMap.mp hfacet
    exact facet.isPlain_rows _ row hrow

theorem Members.isPlain_rows (indent : Nat) (members : Members) :
    ∀ row ∈ members.rows indent, IsPlain row.text := by
  intro row hrow
  cases members with
  | none => exact absurd hrow List.not_mem_nil
  | enum values =>
    rcases List.mem_cons.mp hrow with rfl | hvalue
    · exact (by decide : IsPlain "enum:")
    · exact isPlain_valueRows row hvalue
  | properties outlines hdistinct =>
    rcases List.mem_cons.mp hrow with rfl | hproperty
    · exact (by decide : IsPlain "properties:")
    · obtain ⟨outline, -, hrow⟩ := List.mem_flatMap.mp hproperty
      exact outline.isPlain_rows _ row hrow

theorem TypeOutline.isPlain_rows (indent : Nat) (outline : TypeOutline) :
    ∀ row ∈ outline.rows indent, IsPlain row.text := by
  have hdescription : ∀ row ∈ outline.descriptionRows indent, IsPlain row.text := by
    intro row hrow
    obtain ⟨text, -, rfl⟩ := List.mem_map.mp hrow
    exact Row.isPlain_keyed (by decide) text
  have hmembers := outline.members.isPlain_rows indent
  intro row hrow
  rw [rows] at hrow
  split at hrow
  · exact (List.mem_append.mp hrow).elim (hmembers row) (hdescription row)
  · exact (List.mem_append.mp hrow).elim (hdescription row) (hmembers row)

theorem NamedOutline.isPlain_rows (outline : NamedOutline) :
    ∀ row ∈ outline.rows, IsPlain row.text := by
  intro row hrow
  rcases List.mem_cons.mp hrow with rfl | hfacet
  · exact IsPlain.heading outline.name outline.uncommented
  · exact outline.toTypeOutline.isPlain_rows 4 row hfacet

/-! ### No row is less deep than the first -/

theorem indent_eq_of_mem_valueRows {indent : Nat} {values : List Value} :
    ∀ row ∈ valueRows indent values, row.indent = indent := by
  intro row hrow
  obtain ⟨value, -, rfl⟩ := List.mem_map.mp hrow
  rfl

theorem PropertyFacet.le_indent_of_mem_rows {indent : Nat} (facet : PropertyFacet) :
    ∀ row ∈ facet.rows indent, indent ≤ row.indent := by
  intro row hrow
  cases facet with
  | enum values hne =>
    rcases List.mem_cons.mp hrow with rfl | hvalue
    · exact le_rfl
    · rw [indent_eq_of_mem_valueRows row hvalue]
      omega
  | nestedItems token =>
    rcases List.mem_cons.mp hrow with rfl | hnested
    · exact le_rfl
    · rw [List.mem_singleton.mp hnested, Row.keyed]
      exact Nat.le_add_right indent 2
  | _ =>
    rw [List.mem_singleton.mp hrow]
    exact le_rfl

theorem PropertyOutline.le_indent_of_mem_rows {indent : Nat} (outline : PropertyOutline) :
    ∀ row ∈ outline.rows indent, indent ≤ row.indent := by
  intro row hrow
  rcases List.mem_cons.mp hrow with rfl | hfacet
  · exact le_rfl
  · obtain ⟨facet, -, hrow⟩ := List.mem_flatMap.mp hfacet
    exact (Nat.le_add_right indent 2).trans (facet.le_indent_of_mem_rows row hrow)

theorem Members.le_indent_of_mem_rows {indent : Nat} (members : Members) :
    ∀ row ∈ members.rows indent, indent ≤ row.indent := by
  intro row hrow
  cases members with
  | none => exact absurd hrow List.not_mem_nil
  | enum values =>
    rcases List.mem_cons.mp hrow with rfl | hvalue
    · exact le_rfl
    · rw [indent_eq_of_mem_valueRows row hvalue]
      exact Nat.le_add_right indent 2
  | properties outlines hdistinct =>
    rcases List.mem_cons.mp hrow with rfl | hproperty
    · exact le_rfl
    · obtain ⟨outline, -, hrow⟩ := List.mem_flatMap.mp hproperty
      exact (Nat.le_add_right indent 2).trans (outline.le_indent_of_mem_rows row hrow)

theorem TypeOutline.indent_eq_of_mem_descriptionRows {indent : Nat} (outline : TypeOutline) :
    ∀ row ∈ outline.descriptionRows indent, row.indent = indent := by
  intro row hrow
  obtain ⟨text, -, rfl⟩ := List.mem_map.mp hrow
  rfl

theorem TypeOutline.le_indent_of_mem_rows {indent : Nat} (outline : TypeOutline) :
    ∀ row ∈ outline.rows indent, indent ≤ row.indent := by
  have hdescription : ∀ row ∈ outline.descriptionRows indent, indent ≤ row.indent :=
    fun row hrow => (outline.indent_eq_of_mem_descriptionRows row hrow).ge
  have hmembers : ∀ row ∈ outline.members.rows indent, indent ≤ row.indent :=
    outline.members.le_indent_of_mem_rows
  intro row hrow
  rw [rows] at hrow
  split at hrow
  · exact (List.mem_append.mp hrow).elim (hmembers row) (hdescription row)
  · exact (List.mem_append.mp hrow).elim (hdescription row) (hmembers row)

/-! ### Reading a file line by line -/

theorem isUnbroken_marker (format : SourceFormat) : Text.IsUnbroken format.marker := by
  cases format <;> decide

theorem isSkipped_marker (format : SourceFormat) :
    Line.isSkipped (Text.trim format.marker) = true := by
  cases format <;> decide

theorem lines_fileText {rows : List Row} (hplain : ∀ row ∈ rows, IsPlain row.text)
    (format : SourceFormat) :
    Text.lines (fileText format rows) = format.marker :: rows.map Row.source := by
  refine Text.lines_unlines ?_
  intro s hs
  rcases List.mem_cons.mp hs with rfl | hs
  · exact isUnbroken_marker format
  · obtain ⟨row, hrow, rfl⟩ := List.mem_map.mp hs
    exact Row.isUnbroken_source (hplain row hrow)

/-- The lines of a written file are its rows. The marker in front of them is a comment. -/
theorem significant_fileText {rows : List Row} (hplain : ∀ row ∈ rows, IsPlain row.text)
    (format : SourceFormat) :
    Line.significant 1 (Text.lines (fileText format rows)) = Row.place 2 rows := by
  rw [lines_fileText hplain, ← Row.significant_map_source hplain 2, Line.significant,
    Line.numbered, List.filter_cons_of_neg (by simp [Line.ofSource, isSkipped_marker])]
  rfl

theorem firstTab?_fileText {rows : List Row} (hplain : ∀ row ∈ rows, IsPlain row.text)
    (format : SourceFormat) : Source.firstTab? (Text.lines (fileText format rows)) = none := by
  rw [Source.firstTab?, Option.map_eq_none_iff, List.findIdx?_eq_none_iff, lines_fileText hplain]
  intro s hs
  rcases List.mem_cons.mp hs with rfl | hs
  · rw [Source.hasTab, isSkipped_marker]
    rfl
  · obtain ⟨row, hrow, rfl⟩ := List.mem_map.mp hs
    exact Row.hasTab_source (hplain row hrow)

theorem contains_fileText_marker (format : SourceFormat) (rows : List Row) :
    Text.contains (fileText format rows) format.marker = true := by
  rw [fileText, Text.unlines_cons, String.append_assoc]
  exact Text.contains_append (by cases format <;> decide) _

theorem ofContent_libraryRows (rows : List Row) :
    SourceFormat.ofContent (fileText .library rows) = .library := by
  have hmarker := contains_fileText_marker .library rows
  rw [SourceFormat.ofContent, hmarker]
  simp

theorem ofContent_libraryText (types : List NamedOutline) :
    SourceFormat.ofContent (libraryText types) = .library :=
  ofContent_libraryRows _

theorem ofContent_singleTypeText {type : TypeOutline}
    (hunmarked : Text.contains (singleTypeText type) SourceFormat.library.marker = false) :
    SourceFormat.ofContent (singleTypeText type) = .dataType := by
  have hmarker := contains_fileText_marker .dataType (type.rows 0)
  rw [SourceFormat.ofContent, hunmarked, singleTypeText, hmarker]
  rfl

/-- A written file is read into the types that its rows declare. -/
theorem parse_fileText {rows : List Row} (hplain : ∀ row ∈ rows, IsPlain row.text)
    {format : SourceFormat} (hformat : SourceFormat.ofContent (fileText format rows) = format)
    (convention : Convention) (stem : String) (source : Option String) :
    (Source.parse convention (fileText format rows) stem source).map (·.types) =
      .ok (match format with
        | .library => Library.types convention (Row.place 2 rows)
        | .dataType => SingleType.types convention stem (Row.place 2 rows)).1 := by
  rw [Source.parse, firstTab?_fileText hplain, hformat, ← significant_fileText hplain format]
  cases format <;> rfl

/-- What a written library is read into, with the findings. -/
theorem exists_parse_libraryRows {rows : List Row} (hplain : ∀ row ∈ rows, IsPlain row.text)
    (convention : Convention) (stem : String) (source : Option String) :
    ∃ parsed, Source.parse convention (fileText .library rows) stem source = .ok parsed ∧
      (parsed.types, parsed.findings) = Library.types convention (Row.place 2 rows) := by
  rw [Source.parse, firstTab?_fileText hplain, ofContent_libraryRows,
    ← significant_fileText hplain .library]
  exact ⟨_, rfl, rfl⟩

end RamlSchema.Raml
