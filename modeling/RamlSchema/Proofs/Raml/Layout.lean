import RamlSchema.Proofs.Raml.StrayItems
import RamlSchema.Proofs.Raml.TypeReader

/-!
# Reading what is written

A source file that is written from an outline is read back as the declarations of the outline, the
lifted enums behind them, in both formats. The one thing that may differ is the type of elements in
a property whose type an enum has replaced.
-/

namespace RamlSchema.Raml

/-! ### Libraries -/

namespace Library

/-- Lines deeper than the names of types stay inside of a block. -/
theorem readBlock_cons_of_deep {convention : Convention} {block : Block} {line : Line}
    (hindent : 2 < line.indent) (following : List Line) :
    readBlock convention block (line :: following) =
      readBlock convention (readBlockLine convention line following block) following := by
  have hcloses : closes line = false := by
    rw [closes, if_neg (by omega), typeName?, if_neg (by omega)]
    rfl
  rw [readBlock, hcloses]
  rfl

theorem readBlock_facet {convention : Convention} {block : Block} {line : Line}
    (hindent : line.indent = 4) (following : List Line) :
    readBlock convention block (line :: following) =
      readBlock convention { block with type := readFacet line block.type } following := by
  rw [readBlock_cons_of_deep (by omega), readBlockLine, if_pos hindent]

theorem readBlock_member {convention : Convention} {block : Block} {line : Line}
    (hindent : line.indent = 6) (following : List Line) :
    readBlock convention block (line :: following) =
      readBlock convention (readBlockMember convention line following block) following := by
  rw [readBlock_cons_of_deep (by omega), readBlockLine, if_neg (by omega), if_pos hindent]

theorem readBlock_deeper {convention : Convention} {block : Block} {line : Line}
    (hindent : 6 < line.indent) (following : List Line) :
    readBlock convention block (line :: following) = readBlock convention block following := by
  rw [readBlock_cons_of_deep (by omega), readBlockLine, if_neg (by omega), if_neg (by omega)]

/-- Whether a type is an enum decides what its members are. -/
def reader (convention : Convention) : TypeReader convention 4 Block where
  read := readBlock convention
  block := id
  IsFresh block := block.type.isEnum = false
  TakesValues block := block.type.isEnum = true
  TakesProperties block := block.type.isEnum = false
  describe := by
    intro block line text hindent htext following
    refine ⟨block.describe text, ?_, rfl, id⟩
    rw [readBlock_facet hindent, readFacet, htext]
    rfl
  enum := by
    intro block line _ hindent htext following
    refine ⟨block.asEnum, ?_, rfl, rfl⟩
    rw [readBlock_facet hindent, readFacet, facet?_description_of_eq (.inl htext), htext]
    rfl
  properties := by
    intro block line hproperties hindent htext following
    refine ⟨block, ?_, rfl, hproperties⟩
    rw [readBlock_facet hindent, readFacet, facet?_description_of_eq (.inr htext), htext]
    rfl
  value := by
    intro block line hvalues hindent following
    refine ⟨block.addEntry line.text, ?_, rfl, ?_⟩
    · rw [readBlock_member hindent, readBlockMember, if_pos hvalues]
    · rw [Block.addEntry, Declaration.addEntry_eq]
      exact hvalues
  property := by
    intro block line heading hproperties hindent hheading following
    refine ⟨block.addProperty convention heading line following, ?_, rfl, hproperties⟩
    rw [readBlock_member hindent, readBlockMember, if_neg (Bool.eq_false_iff.mp hproperties),
      hheading]
  deeper _ _ := readBlock_deeper

def blockFrom (convention : Convention) (type : NamedOutline) : Block where
  type := type.readDeclaration convention type.name.text
  lifted := type.lifted type.name.text

theorem typeName?_heading (name : Phrase) (number : Int) :
    typeName? ⟨number, 2, name.text ++ ":"⟩ = some name.text := by
  rw [typeName?, if_pos rfl, Line.heading?, Text.dropSuffix?_append, Option.map_some, name.trimmed]

theorem closes_heading (type : NamedOutline) (number : Int) :
    closes ⟨number, 2, type.name.text ++ ":"⟩ = true := by
  rw [closes, if_neg (by exact Nat.succ_ne_zero 1), typeName?_heading]
  rfl

theorem readBlock_rows (convention : Convention) (type : NamedOutline)
    (others : List NamedOutline) (number : Int) :
    readBlock convention { type := { name := type.name.text } }
        (Row.place number (type.toTypeOutline.rows 4 ++ others.flatMap (·.rows))) =
      blockFrom convention type := by
  have hhead : ∀ row ∈ (others.flatMap (·.rows)).head?, row.indent ≤ 4 := by
    cases others with
    | nil => exact nofun
    | cons other others =>
      intro row hrow
      obtain rfl := Option.some_inj.mp hrow
      exact Nat.le_add_right 2 2
  obtain ⟨block, number', hread, hblock, -⟩ := TypeReader.leads_type (reader convention)
    { type := { name := type.name.text } } type.toTypeOutline rfl rfl hhead number
  refine hread.trans (Eq.trans ?_ hblock)
  change readBlock convention block _ = block
  cases others with
  | nil => rfl
  | cons other others =>
    rw [List.flatMap_cons, NamedOutline.rows, List.cons_append, Row.place_cons, readBlock,
      closes_heading]
    rfl

/-- The blocks of a written library are its types. -/
theorem blocks_rows (convention : Convention) (types : List NamedOutline) (number : Int) :
    (openings true (Row.place number (types.flatMap (·.rows)))).map (blockOf convention) =
      types.map (blockFrom convention) := by
  induction types generalizing number with
  | nil => rfl
  | cons type types ih =>
    have hdeep : ∀ line ∈ Row.place (number + 1) (type.toTypeOutline.rows 4), 2 < line.indent := by
      intro line hline
      obtain ⟨row, hrow, hindent⟩ := Row.exists_of_mem_place hline
      have := type.le_indent_of_mem_rows row hrow
      omega
    rw [List.flatMap_cons, NamedOutline.rows, List.cons_append, Row.place_cons, openings,
      if_neg (by exact Nat.succ_ne_zero 1), if_pos rfl, typeName?_heading]
    change blockOf convention _ :: _ = _
    rw [Row.place_append, openings_append_of_deep hdeep, ih, ← Row.place_append, blockOf,
      readBlock_rows]
    rfl

/-- A written library is read as its types and the enums lifted out of them. -/
theorem types_rows (convention : Convention) (types : List NamedOutline) (number : Int) :
    (Library.types convention (Row.place number (⟨0, "types:"⟩ :: types.flatMap (·.rows)))).1 =
      types.map (fun type => type.readDeclaration convention type.name.text) ++
        types.flatMap fun type => type.lifted type.name.text := by
  have hblocks : blocks convention
      (Row.place number (⟨0, "types:"⟩ :: types.flatMap (·.rows))) =
        types.map (blockFrom convention) := by
    rw [blocks, Row.place_cons, openings, if_pos rfl]
    exact blocks_rows convention types (number + 1)
  rw [types_eq_blocks, hblocks, List.map_map, List.flatMap_map]
  rfl

end Library

/-! ### Files of a single type -/

namespace SingleType

theorem read_facet {convention : Convention} {progress : Progress} {line : Line}
    (hindent : line.indent = 0) (following : List Line) :
    read convention progress (line :: following) =
      read convention (readFacet line progress) following := by
  rw [read, readLine, if_pos hindent]

theorem read_member {convention : Convention} {progress : Progress} {line : Line}
    (hindent : line.indent = 2) (following : List Line) :
    read convention progress (line :: following) =
      read convention (readMember convention line following progress) following := by
  rw [read, readLine, if_neg (by omega), if_pos hindent]

theorem read_deeper {convention : Convention} {progress : Progress} {line : Line}
    (hindent : 2 < line.indent) (following : List Line) :
    read convention progress (line :: following) = read convention progress following := by
  rw [read, readLine, if_neg (by omega), if_neg (by omega)]

/-- The last facet `enum:` or `properties:` decides what the members are. -/
def reader (convention : Convention) : TypeReader convention 0 Progress where
  read := read convention
  block progress := { type := progress.type, lifted := progress.lifted }
  IsFresh _ := True
  TakesValues progress := progress.inside = .enum
  TakesProperties progress := progress.inside = .properties
  describe := by
    intro progress line text hindent htext following
    refine ⟨_, read_facet hindent following, ?_, fun _ => trivial⟩
    rw [readFacet, htext]
    rfl
  enum := by
    intro progress line _ hindent htext following
    refine ⟨_, read_facet hindent following, ?_⟩
    rw [readFacet, facet?_description_of_eq (.inl htext), htext]
    exact ⟨rfl, rfl⟩
  properties := by
    intro progress line _ hindent htext following
    refine ⟨_, read_facet hindent following, ?_⟩
    rw [readFacet, facet?_description_of_eq (.inr htext), htext]
    exact ⟨rfl, rfl⟩
  value := by
    intro progress line hvalues hindent following
    refine ⟨_, read_member hindent following, ?_⟩
    rw [readMember, hvalues]
    exact ⟨rfl, rfl⟩
  property := by
    intro progress line heading hproperties hindent hheading following
    refine ⟨_, read_member hindent following, ?_⟩
    rw [readMember, hproperties, hheading]
    exact ⟨rfl, rfl⟩
  deeper _ _ := read_deeper

theorem types_rows (convention : Convention) (stem : String) (type : TypeOutline) (number : Int) :
    (types convention stem (Row.place number (type.rows 0))).1 =
      type.readDeclaration convention (Naming.typeName stem) ::
        type.lifted (Naming.typeName stem) := by
  obtain ⟨progress, number', hread, hblock, -⟩ := TypeReader.leads_type (reader convention)
    { type := { name := Naming.typeName stem } } type trivial rfl
    (fun row (hrow : row ∈ ([] : List Row).head?) => absurd hrow nofun) number
  rw [List.append_nil] at hread
  change read convention _ _ = progress at hread
  have htype := congrArg Block.type hblock
  have hlifted := congrArg Block.lifted hblock
  rw [types, hread]
  exact List.cons_eq_cons.mpr ⟨htype, hlifted⟩

end SingleType

/-! ### Any file -/

namespace SourceOutline

/-- The declarations that are read from the text of an outline. -/
def readTypes (convention : Convention) (stem : String) (outline : SourceOutline) :
    List Declaration :=
  (outline.named stem).map (fun (name, type) => type.readDeclaration convention name) ++
    (outline.named stem).flatMap (fun (name, type) => type.lifted name)

theorem parse_text (convention : Convention) (stem : String) (source : Option String)
    (outline : SourceOutline) :
    (Source.parse convention outline.text stem source).map (·.types) =
      .ok (outline.readTypes convention stem) := by
  cases outline with
  | library types =>
    have hplain : ∀ row ∈ (⟨0, "types:"⟩ :: types.flatMap (·.rows) : List Row),
        IsPlain row.text := by
      intro row hrow
      rcases List.mem_cons.mp hrow with rfl | hrow
      · exact (by decide : IsPlain "types:")
      · obtain ⟨type, -, hrow⟩ := List.mem_flatMap.mp hrow
        exact type.isPlain_rows row hrow
    rw [text, libraryText, parse_fileText hplain (ofContent_libraryText types)]
    simp only [Library.types_rows, readTypes, named, List.map_map, List.flatMap_map]
    rfl
  | singleType type hunmarked =>
    rw [text, singleTypeText,
      parse_fileText (type.isPlain_rows 0) (ofContent_singleTypeText hunmarked)]
    simp only [SingleType.types_rows, readTypes, named]
    simp

theorem readDeclaration_eq_declaration_iff {convention : Convention} {name : String}
    {type : TypeOutline} :
    type.readDeclaration convention name = type.declaration convention name ↔
      ∀ property ∈ type.members.outlines, ¬property.HasStrayItems := by
  have hproperties : type.readDeclaration convention name = type.declaration convention name ↔
      (type.readDeclaration convention name).properties =
        (type.declaration convention name).properties := by
    constructor
    · exact congrArg Declaration.properties
    · intro heq
      exact congrArg (fun properties => { type.declaration convention name with properties }) heq
  rw [hproperties]
  change List.map _ _ = List.map _ _ ↔ _
  rw [List.map_inj_left]
  refine forall₂_congr fun property _ => ?_
  rw [Prod.mk.injEq, PropertyOutline.readProperty_eq_property_iff, eq_self, true_and]

theorem properties_eq (stem : String) (outline : SourceOutline) :
    outline.properties = (outline.named stem).flatMap (·.2.members.outlines) := by
  cases outline with
  | library types => rw [properties, named, List.flatMap_map]
  | singleType type hunmarked => exact (List.append_nil _).symm

/-- **What is written is read back**, except in files with a property that declares an array behind
its own enum, with the type of the elements. There the elements stay, although no array does. -/
theorem parse_text_eq_types_iff (convention : Convention) (stem : String) (source : Option String)
    (outline : SourceOutline) :
    (Source.parse convention outline.text stem source).map (·.types) =
        .ok (outline.types convention stem) ↔
      ∀ property ∈ outline.properties, ¬property.HasStrayItems := by
  rw [parse_text, Except.ok.injEq, readTypes, types, List.append_left_inj, List.map_inj_left,
    properties_eq stem]
  simp only [List.mem_flatMap]
  constructor
  · rintro hnamed property ⟨pair, hpair, hproperty⟩
    exact readDeclaration_eq_declaration_iff.mp (hnamed pair hpair) property hproperty
  · intro hall pair hpair
    refine readDeclaration_eq_declaration_iff.mpr ?_
    exact fun property hproperty => hall property ⟨pair, hpair, hproperty⟩

/-- An array with elements behind an enum. -/
def shade : PropertyOutline where
  name := "shade"
  isOptional := false
  facets :=
    [.enum [⟨⟨"A", by decide, by decide⟩, by decide, by decide⟩] (by decide),
      .type ⟨"array", by decide, by decide⟩, .items ⟨"string", by decide, by decide⟩ (by decide)]
  trimmed := by decide
  unbroken := by decide
  uncommented := by decide
  unmarked _ := by decide
  distinct := by decide

/-- A library with one type, whose property is an array behind its enum. -/
def shadeLibrary : SourceOutline :=
  .library
    [{ name := ⟨"Paint", by decide, by decide⟩
       uncommented := by decide
       description := none
       describedLast := false
       members := .properties [shade] (by decide) }]

set_option maxRecDepth 10000 in
/-- There the elements are read, although the type is gone. -/
theorem parse_shadeLibrary_ne :
    shadeLibrary.text =
      "#%RAML 1.0 Library\ntypes:\n  Paint:\n    properties:\n      shade:\n        enum:\n" ++
        "          - A\n        type: array\n        items: string\n" ∧
    (Source.parse .pascal shadeLibrary.text "paint" none).map (·.types) ≠
      .ok (shadeLibrary.types .pascal "paint") :=
  ⟨rfl, by decide⟩

end SourceOutline

end RamlSchema.Raml
