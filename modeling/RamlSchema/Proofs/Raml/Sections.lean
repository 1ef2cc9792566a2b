import RamlSchema.Proofs.Entries
import RamlSchema.Proofs.Raml.Blocks
import RamlSchema.Proofs.Text.Trim

/-!
# Where properties and values come from

Every property of a declared type, and every value of a declared enum, comes from a line of its own.
In a library the facet `enum:` alone decides what the members of a type are, and in a file of a
single type the last of the facets `enum:` and `properties:` in front of the line does.
-/

namespace RamlSchema.Raml

/-! ### Lifted enums -/

theorem PropertyBlock.exists_of_liftedEnum_eq_some {base : Int} {context : PropertyContext}
    {line : Int} {declared : Option String} {following : List Line} {declaration : Declaration}
    (hlifted : (resolve base context line declared following).liftedEnum = some declaration) :
    ∃ values, values ≠ [] ∧ declaration = liftedEnumOf context values := by
  unfold resolve at hlifted
  dsimp only at hlifted
  split at hlifted
  · split at hlifted
    case isTrue => cases hlifted
    case isFalse hvalues =>
      refine ⟨_, ?_, (Option.some_inj.mp hlifted).symm⟩
      simpa using hvalues
  · cases hlifted

/-- A declaration that stands for the enum in a property. -/
def Declaration.IsLifted (declaration : Declaration) : Prop :=
  declaration.origin.isSome ∧ declaration.isEnum = true ∧ declaration.properties = []

theorem isLifted_of_resolveHeading {convention : Convention} {parent heading : String} {line : Line}
    {following : List Line} :
    ∀ declaration ∈ (resolveHeading convention parent heading line following).liftedEnum.toList,
      declaration.IsLifted := by
  intro declaration hdeclaration
  rw [Option.mem_toList] at hdeclaration
  obtain ⟨values, -, rfl⟩ := PropertyBlock.exists_of_liftedEnum_eq_some hdeclaration
  exact ⟨rfl, rfl, rfl⟩

/-! ### Lines that declare -/

/-- The heading on `line`, with the lines `after` it, declares the property. -/
def Declares (convention : Convention) (parent : String) (line : Line) (after : List Line)
    (property : String × Property) : Prop :=
  ∃ heading, Line.heading? line.text = some heading ∧ property.1 = (propertyName heading).1 ∧
    property.2 = (resolveHeading convention parent heading line after).property

theorem mem_properties_addResolution {declaration : Declaration} {heading : String}
    {resolution : Resolution} {property : String × Property}
    (hproperty : property ∈ (declaration.addResolution heading resolution).properties) :
    property = ((propertyName heading).1, resolution.property) ∨
      property ∈ declaration.properties :=
  Entries.eq_or_mem_of_mem_put hproperty

theorem mem_values_addEntry {declaration : Declaration} {text value : String}
    (hvalue : value ∈ (declaration.addEntry text).values) :
    Line.entry? text = some value ∨ value ∈ declaration.values := by
  rw [Declaration.addEntry_eq] at hvalue
  rcases List.mem_append.mp hvalue with hold | hnew
  · exact .inr hold
  · exact .inl (Option.mem_toList.mp hnew)

/-! ### Libraries -/

namespace Library

/-- A facet that makes a type an enum. -/
def opensEnum (line : Line) : Bool := line.indent == 4 && Text.startsWith line.text "enum:"

/-- The property stands in a block, six spaces deep, and no `enum:` in front of it. -/
def PropertyFrom (convention : Convention) (name : String) (body : List Line)
    (property : String × Property) : Prop :=
  ∃ between line after, body = between ++ line :: after ∧
    (∀ l ∈ between, closes l = false ∧ opensEnum l = false) ∧ line.indent = 6 ∧
    Declares convention name line after property

/-- The value stands in a block, six spaces deep, and an `enum:` in front of it. -/
def ValueFrom (body : List Line) (value : String) : Prop :=
  ∃ between line after, body = between ++ line :: after ∧
    (∀ l ∈ between, closes l = false) ∧ (∃ l ∈ between, opensEnum l = true) ∧ line.indent = 6 ∧
    Line.entry? line.text = some value

/-- The members of a type stand behind the line that names the type. -/
def IsScoped (convention : Convention) (lines : List Line) (type : Declaration) : Prop :=
  ∃ before head body, lines = before ++ head :: body ∧ typeName? head = some type.name ∧
    (∀ property ∈ type.properties, PropertyFrom convention type.name body property) ∧
    ∀ value ∈ type.values, ValueFrom body value

/-- What holds of a block while the lines `between` of its body have been read. -/
structure Grown (convention : Convention) (name : String) (body between : List Line)
    (block : Block) : Prop where
  open_eq : ∀ l ∈ between, closes l = false
  name_eq : block.type.name = name
  origin_eq : block.type.origin = none
  isEnum_iff : block.type.isEnum = true ↔ ∃ l ∈ between, opensEnum l = true
  properties_from : ∀ property ∈ block.type.properties, PropertyFrom convention name body property
  values_from : ∀ value ∈ block.type.values, ValueFrom body value
  isLifted : ∀ declaration ∈ block.lifted, declaration.IsLifted

theorem facet?_description_of_startsWith_enum {text : String}
    (hstarts : Text.startsWith text "enum:" = true) : Line.facet? "description:" text = none := by
  obtain ⟨rest, hrest⟩ := List.isPrefixOf_iff_prefix.mp hstarts
  have hhead : text.toList.head? ≠ "description:".toList.head? := by
    rw [← hrest, List.head?_append_of_ne_nil _ (by decide)]
    decide
  rw [Line.facet?, Text.dropPrefix?_eq_none_of_head (by decide) hhead]
  rfl

/-- A facet changes nothing but the description, or that the type is an enum. -/
theorem isEnum_readFacet (line : Line) (type : Declaration) :
    (readFacet line type).isEnum = (type.isEnum || Text.startsWith line.text "enum:") := by
  rw [readFacet]
  cases hstarts : Text.startsWith line.text "enum:" with
  | true =>
    rw [facet?_description_of_startsWith_enum hstarts]
    simp
  | false => cases Line.facet? "description:" line.text <;> simp

theorem members_readFacet (line : Line) (type : Declaration) :
    (readFacet line type).name = type.name ∧ (readFacet line type).origin = type.origin ∧
      (readFacet line type).properties = type.properties ∧
      (readFacet line type).values = type.values := by
  unfold readFacet
  split
  · exact ⟨rfl, rfl, rfl, rfl⟩
  · split <;> exact ⟨rfl, rfl, rfl, rfl⟩

variable {convention : Convention} {name : String} {body between after : List Line} {line : Line}
  {block : Block}

/-- A line that is no `enum:` facet adds nothing to what makes a type an enum. -/
theorem Grown.isEnum_iff_concat (hgrown : Grown convention name body between block)
    (hline : opensEnum line = false) :
    block.type.isEnum = true ↔ ∃ l ∈ between ++ [line], opensEnum l = true := by
  rw [hgrown.isEnum_iff]
  simp [or_and_right, exists_or, hline]

theorem Grown.open_concat (hgrown : Grown convention name body between block)
    (hline : closes line = false) : ∀ l ∈ between ++ [line], closes l = false := by
  intro l hl
  rcases List.mem_append.mp hl with hl | hl
  · exact hgrown.open_eq l hl
  · rwa [List.mem_singleton.mp hl]

theorem Grown.facet (hgrown : Grown convention name body between block)
    (hline : closes line = false) (hindent : line.indent = 4) :
    Grown convention name body (between ++ [line])
      { block with type := readFacet line block.type } := by
  obtain ⟨hname, horigin, hproperties, hvalues⟩ := members_readFacet line block.type
  have hopens : opensEnum line = Text.startsWith line.text "enum:" := by
    rw [opensEnum, hindent]
    rfl
  refine ⟨hgrown.open_concat hline, hname.trans hgrown.name_eq, horigin.trans hgrown.origin_eq,
    ?_, ?_, ?_, hgrown.isLifted⟩
  · change (readFacet line block.type).isEnum = true ↔ _
    rw [isEnum_readFacet, Bool.or_eq_true, hgrown.isEnum_iff]
    simp [or_and_right, exists_or, hopens]
  · change ∀ property ∈ (readFacet line block.type).properties, _
    rw [hproperties]
    exact hgrown.properties_from
  · change ∀ value ∈ (readFacet line block.type).values, _
    rw [hvalues]
    exact hgrown.values_from

theorem Grown.addEntry (hgrown : Grown convention name body between block)
    (hline : closes line = false) (hindent : line.indent = 6)
    (hbody : body = between ++ line :: after) (henum : block.type.isEnum = true) :
    Grown convention name body (between ++ [line]) (block.addEntry line.text) := by
  have hfacet : opensEnum line = false := by simp [opensEnum, hindent]
  refine ⟨hgrown.open_concat hline, ?_, ?_, ?_, ?_, ?_, hgrown.isLifted⟩
  · rw [Block.addEntry, Declaration.addEntry_eq]
    exact hgrown.name_eq
  · rw [Block.addEntry, Declaration.addEntry_eq]
    exact hgrown.origin_eq
  · rw [Block.addEntry, Declaration.addEntry_eq]
    exact hgrown.isEnum_iff_concat hfacet
  · rw [Block.addEntry, Declaration.addEntry_eq]
    exact hgrown.properties_from
  · intro value hvalue
    rcases mem_values_addEntry hvalue with hentry | hold
    · exact ⟨between, line, after, hbody, hgrown.open_eq, hgrown.isEnum_iff.mp henum, hindent,
        hentry⟩
    · exact hgrown.values_from value hold

theorem Grown.addProperty (hgrown : Grown convention name body between block)
    (hline : closes line = false) (hindent : line.indent = 6)
    (hbody : body = between ++ line :: after) (hisEnum : block.type.isEnum = false)
    {heading : String} (hheading : Line.heading? line.text = some heading) :
    Grown convention name body (between ++ [line])
      (block.addProperty convention heading line after) := by
  have hfacet : opensEnum line = false := by simp [opensEnum, hindent]
  -- A facet `enum:` in front of the line would have made the type an enum.
  have hfront : ∀ l ∈ between, closes l = false ∧ opensEnum l = false := by
    intro l hl
    refine ⟨hgrown.open_eq l hl, Bool.eq_false_iff.mpr fun hopens => ?_⟩
    exact Bool.eq_false_iff.mp hisEnum (hgrown.isEnum_iff.mpr ⟨l, hl, hopens⟩)
  refine ⟨hgrown.open_concat hline, hgrown.name_eq, hgrown.origin_eq,
    hgrown.isEnum_iff_concat hfacet, ?_, hgrown.values_from, ?_⟩
  · intro property hproperty
    rcases mem_properties_addResolution hproperty with rfl | hold
    · refine ⟨between, line, after, hbody, hfront, hindent, heading, hheading, rfl, ?_⟩
      rw [hgrown.name_eq]
    · exact hgrown.properties_from property hold
  · intro declaration hdeclaration
    rcases List.mem_append.mp hdeclaration with hold | hnew
    · exact hgrown.isLifted declaration hold
    · exact isLifted_of_resolveHeading declaration hnew

/-- Every line of a block keeps the members in their sections. -/
theorem Grown.readBlockLine (hgrown : Grown convention name body between block)
    (hline : closes line = false) (hbody : body = between ++ line :: after) :
    Grown convention name body (between ++ [line])
      (readBlockLine convention line after block) := by
  rw [Library.readBlockLine]
  split
  case isTrue hindent => exact hgrown.facet hline hindent
  case isFalse hmargin =>
    have hfacet : opensEnum line = false := by simp [opensEnum, hmargin]
    have hskip : Grown convention name body (between ++ [line]) block :=
      ⟨hgrown.open_concat hline, hgrown.name_eq, hgrown.origin_eq, hgrown.isEnum_iff_concat hfacet,
        hgrown.properties_from, hgrown.values_from, hgrown.isLifted⟩
    split
    case isTrue hindent =>
      rw [readBlockMember]
      split
      case isTrue henum => exact hgrown.addEntry hline hindent hbody henum
      case isFalse henum =>
        split
        case h_1 => exact hskip
        case h_2 heading hheading =>
          exact hgrown.addProperty hline hindent hbody (by simpa using henum) hheading
    case isFalse => exact hskip

theorem Grown.readBlock (hgrown : Grown convention name body between block)
    (hbody : body = between ++ after) :
    ∃ between', Grown convention name body between' (readBlock convention block after) := by
  induction after generalizing between block with
  | nil => exact ⟨between, hgrown⟩
  | cons line after ih =>
    rw [Library.readBlock]
    split
    case isTrue => exact ⟨between, hgrown⟩
    case isFalse hcloses =>
      refine ih (hgrown.readBlockLine (by simpa using hcloses) hbody) ?_
      rw [hbody, List.append_assoc, List.singleton_append]

theorem grown_blockOf (convention : Convention) (name : String) (body : List Line) :
    ∃ between, Grown convention name body between (blockOf convention (name, body)) := by
  have hstart : Grown convention name body [] { type := { name } } :=
    ⟨List.forall_mem_nil _, rfl, rfl, by simp, List.forall_mem_nil _, List.forall_mem_nil _,
      List.forall_mem_nil _⟩
  exact hstart.readBlock rfl

theorem exists_of_mem_openings {inTypes : Bool} {lines : List Line} {opening : String × List Line}
    (hopening : opening ∈ openings inTypes lines) :
    ∃ before head, lines = before ++ head :: opening.2 ∧ typeName? head = some opening.1 := by
  induction lines generalizing inTypes with
  | nil => exact absurd hopening List.not_mem_nil
  | cons line following ih =>
    have hlater : ∀ {inTypes}, opening ∈ openings inTypes following →
        ∃ before head, line :: following = before ++ head :: opening.2 ∧
          typeName? head = some opening.1 := by
      intro inTypes hlater
      obtain ⟨before, head, hlines, hname⟩ := ih hlater
      exact ⟨line :: before, head, congrArg (line :: ·) hlines, hname⟩
    rw [openings] at hopening
    split at hopening
    · exact hlater hopening
    · split at hopening
      case h_1 name hname =>
        rcases List.mem_cons.mp hopening with rfl | hopening
        · refine ⟨[], line, rfl, ?_⟩
          cases inTypes with
          | true => exact hname
          | false => cases hname
        · exact hlater hopening
      case h_2 => exact hlater hopening

end Library

/-! ### Files of a single type -/

namespace SingleType

/-- A facet whose members stand two steps in. -/
def opensSection (line : Line) : Bool :=
  line.indent == 0 && (line.text == "enum:" || line.text == "properties:")

/-- The last of the facets `enum:` and `properties:` among the lines is the one given. -/
def StandsUnder (facet : String) (before : List Line) : Prop :=
  ∃ front opener between, before = front ++ opener :: between ∧ opener.indent = 0 ∧
    opener.text = facet ∧ ∀ l ∈ between, opensSection l = false

/-- The property stands two spaces deep under `properties:`. -/
def PropertyFrom (convention : Convention) (name : String) (lines : List Line)
    (property : String × Property) : Prop :=
  ∃ before line after, lines = before ++ line :: after ∧ StandsUnder "properties:" before ∧
    line.indent = 2 ∧ Declares convention name line after property

/-- The value stands two spaces deep under `enum:`. -/
def ValueFrom (lines : List Line) (value : String) : Prop :=
  ∃ before line after, lines = before ++ line :: after ∧ StandsUnder "enum:" before ∧
    line.indent = 2 ∧ Line.entry? line.text = some value

def IsScoped (convention : Convention) (lines : List Line) (type : Declaration) : Prop :=
  (∀ property ∈ type.properties, PropertyFrom convention type.name lines property) ∧
    ∀ value ∈ type.values, ValueFrom lines value

theorem StandsUnder.concat {facet : String} {before : List Line}
    (hunder : StandsUnder facet before) {line : Line} (hline : opensSection line = false) :
    StandsUnder facet (before ++ [line]) := by
  obtain ⟨front, opener, between, rfl, hindent, htext, hbetween⟩ := hunder
  refine ⟨front, opener, between ++ [line], by simp, hindent, htext, ?_⟩
  intro l hl
  rcases List.mem_append.mp hl with hl | hl
  · exact hbetween l hl
  · rwa [List.mem_singleton.mp hl]

theorem standsUnder_concat {before : List Line} {line : Line} (hindent : line.indent = 0) :
    StandsUnder line.text (before ++ [line]) :=
  ⟨before, line, [], rfl, hindent, rfl, nofun⟩

/-- What holds while the lines `before` have been read. -/
structure Grown (convention : Convention) (name : String) (lines before : List Line)
    (progress : Progress) : Prop where
  name_eq : progress.type.name = name
  origin_eq : progress.type.origin = none
  enum_under : progress.inside = .enum → StandsUnder "enum:" before
  properties_under : progress.inside = .properties → StandsUnder "properties:" before
  properties_from : ∀ property ∈ progress.type.properties,
    PropertyFrom convention name lines property
  values_from : ∀ value ∈ progress.type.values, ValueFrom lines value
  isLifted : ∀ declaration ∈ progress.lifted, declaration.IsLifted

variable {convention : Convention} {name : String} {lines before after : List Line} {line : Line}
  {progress : Progress}

/-- A line that opens no section leaves the members under theirs. -/
theorem Grown.concat (hgrown : Grown convention name lines before progress)
    (hline : opensSection line = false) :
    Grown convention name lines (before ++ [line]) progress :=
  ⟨hgrown.name_eq, hgrown.origin_eq, fun hinside => (hgrown.enum_under hinside).concat hline,
    fun hinside => (hgrown.properties_under hinside).concat hline, hgrown.properties_from,
    hgrown.values_from, hgrown.isLifted⟩

theorem Grown.readFacet (hgrown : Grown convention name lines before progress)
    (hindent : line.indent = 0) :
    Grown convention name lines (before ++ [line]) (readFacet line progress) := by
  rw [SingleType.readFacet]
  split
  case h_1 description hdescription =>
    have hother : opensSection line = false := by
      have henum : line.text ≠ "enum:" := fun htext => by
        rw [facet?_description_of_eq (.inl htext)] at hdescription
        cases hdescription
      have hproperties : line.text ≠ "properties:" := fun htext => by
        rw [facet?_description_of_eq (.inr htext)] at hdescription
        cases hdescription
      simp [opensSection, henum, hproperties]
    obtain ⟨hname, horigin, henum, hproperties, hfrom, hvalues, hlifted⟩ := hgrown.concat hother
    exact ⟨hname, horigin, henum, hproperties, hfrom, hvalues, hlifted⟩
  case h_2 =>
    obtain ⟨hname, horigin, henum, hproperties, hfrom, hvalues, hlifted⟩ := hgrown
    split
    case isTrue htext =>
      refine ⟨hname, horigin, fun _ => ?_, nofun, hfrom, hvalues, hlifted⟩
      rw [← htext]
      exact standsUnder_concat hindent
    case isFalse htext =>
      split
      case isTrue htext =>
        refine ⟨hname, horigin, nofun, fun _ => ?_, hfrom, hvalues, hlifted⟩
        rw [← htext]
        exact standsUnder_concat hindent
      case isFalse htext' =>
        have hother : opensSection line = false := by simp [opensSection, htext, htext']
        exact Grown.concat ⟨hname, horigin, henum, hproperties, hfrom, hvalues, hlifted⟩ hother

theorem Grown.readMember (hgrown : Grown convention name lines before progress)
    (hindent : line.indent = 2) (hlines : lines = before ++ line :: after) :
    Grown convention name lines (before ++ [line])
      (readMember convention line after progress) := by
  have hother : opensSection line = false := by simp [opensSection, hindent]
  rw [SingleType.readMember]
  split
  case h_1 => exact hgrown.concat hother
  case h_2 hinside =>
    obtain ⟨hname, horigin, henum, hproperties, hfrom, hvalues, hlifted⟩ := hgrown.concat hother
    rw [Declaration.addEntry_eq]
    refine ⟨hname, horigin, henum, hproperties, hfrom, ?_, hlifted⟩
    intro value hvalue
    rcases List.mem_append.mp hvalue with hold | hnew
    · exact hvalues value hold
    · exact ⟨before, line, after, hlines, hgrown.enum_under hinside, hindent,
        Option.mem_toList.mp hnew⟩
  case h_3 hinside =>
    split
    case h_1 => exact hgrown.concat hother
    case h_2 heading hheading =>
      obtain ⟨hname, horigin, henum, hproperties, hfrom, hvalues, hlifted⟩ := hgrown.concat hother
      refine ⟨hname, horigin, henum, hproperties, ?_, hvalues, ?_⟩
      · intro property hproperty
        rcases mem_properties_addResolution hproperty with rfl | hold
        · refine ⟨before, line, after, hlines, hgrown.properties_under hinside, hindent, heading,
            hheading, rfl, ?_⟩
          rw [hname]
        · exact hfrom property hold
      · intro declaration hdeclaration
        rcases List.mem_append.mp hdeclaration with hold | hnew
        · exact hlifted declaration hold
        · exact isLifted_of_resolveHeading declaration hnew

theorem Grown.readLine (hgrown : Grown convention name lines before progress)
    (hlines : lines = before ++ line :: after) :
    Grown convention name lines (before ++ [line]) (readLine convention line after progress) := by
  rw [SingleType.readLine]
  split
  case isTrue hindent => exact hgrown.readFacet hindent
  case isFalse hmargin =>
    split
    case isTrue hindent => exact hgrown.readMember hindent hlines
    case isFalse => exact hgrown.concat (by simp [opensSection, hmargin])

theorem Grown.read (hgrown : Grown convention name lines before progress)
    (hlines : lines = before ++ after) :
    Grown convention name lines lines (read convention progress after) := by
  induction after generalizing before progress with
  | nil =>
    obtain rfl : lines = before := by rw [hlines, List.append_nil]
    exact hgrown
  | cons line after ih =>
    exact ih (hgrown.readLine hlines) (by rw [hlines, List.append_assoc, List.singleton_append])

theorem grown_read (convention : Convention) (name : String) (lines : List Line) :
    Grown convention name lines lines (read convention { type := { name } } lines) := by
  have hstart : Grown convention name lines [] { type := { name } } :=
    ⟨rfl, rfl, nofun, nofun, List.forall_mem_nil _, List.forall_mem_nil _, List.forall_mem_nil _⟩
  exact hstart.read (List.nil_append lines).symm

end SingleType

/-! ### Any file -/

namespace Source

def IsScoped (convention : Convention) (lines : List Line) (type : Declaration) :
    SourceFormat → Prop
  | .library => Library.IsScoped convention lines type
  | .dataType => SingleType.IsScoped convention lines type

/-- Declarations that are written as types, each with its members in their sections. -/
def IsDeclared (convention : Convention) (lines : List Line) (format : SourceFormat)
    (type : Declaration) : Prop :=
  type.origin = none ∧ IsScoped convention lines type format

theorem isDeclared_of_mem_blocks {convention : Convention} {lines : List Line} {block : Block}
    (hblock : block ∈ Library.blocks convention lines) :
    IsDeclared convention lines .library block.type ∧
      ∀ declaration ∈ block.lifted, declaration.IsLifted := by
  obtain ⟨⟨name, body⟩, hopening, rfl⟩ := List.mem_map.mp hblock
  obtain ⟨before, head, hlines, hhead⟩ := Library.exists_of_mem_openings hopening
  obtain ⟨between, hgrown⟩ := Library.grown_blockOf convention name body
  refine ⟨⟨hgrown.origin_eq, before, head, body, hlines, ?_, ?_, hgrown.values_from⟩,
    hgrown.isLifted⟩
  · rw [hgrown.name_eq]
    exact hhead
  · rw [hgrown.name_eq]
    exact hgrown.properties_from

/-- The types of a file are the declared ones and behind them the lifted ones. -/
theorem types_eq_declared_append_lifted (convention : Convention) (format : SourceFormat)
    (stem : String) (sources : List String) :
    ∃ declared lifted, (typesOf convention format stem sources).1 = declared ++ lifted ∧
      (∀ type ∈ declared, IsDeclared convention (Line.significant 1 sources) format type) ∧
      ∀ declaration ∈ lifted, declaration.IsLifted := by
  cases format with
  | library =>
    refine ⟨_, _, Library.types_eq_blocks convention (Line.significant 1 sources), ?_, ?_⟩
    · intro type htype
      obtain ⟨block, hblock, rfl⟩ := List.mem_map.mp htype
      exact (isDeclared_of_mem_blocks hblock).1
    · intro declaration hdeclaration
      obtain ⟨block, hblock, hlifted⟩ := List.mem_flatMap.mp hdeclaration
      exact (isDeclared_of_mem_blocks hblock).2 declaration hlifted
  | dataType =>
    have hgrown := SingleType.grown_read convention (Naming.typeName stem)
      (Line.significant 1 sources)
    refine ⟨[_], _, rfl, ?_, hgrown.isLifted⟩
    intro type htype
    rw [List.mem_singleton.mp htype]
    refine ⟨hgrown.origin_eq, ?_, hgrown.values_from⟩
    rw [hgrown.name_eq]
    exact hgrown.properties_from

theorem parse_eq_ok {convention : Convention} {content stem : String} {source : Option String}
    {parsed : Parsed} (hparse : parse convention content stem source = .ok parsed) :
    parsed.types =
        (typesOf convention (SourceFormat.ofContent content) stem (Text.lines content)).1 ∧
      parsed.findings =
        (typesOf convention (SourceFormat.ofContent content) stem (Text.lines content)).2 := by
  unfold parse at hparse
  dsimp only at hparse
  split at hparse
  case h_1 => cases hparse
  case h_2 =>
    obtain rfl := Except.ok.inj hparse
    exact ⟨rfl, rfl⟩

/-- **Members stand in their sections.** In every file that is parsed, each property of a declared
type and each value of a declared enum comes from a line of its own that stands where the format
has such members. In a library that is no question of the nearest facet above the line: once a type
has a facet `enum:` its members are values, and before that they are properties. -/
theorem parse_isScoped {convention : Convention} {content stem : String} {source : Option String}
    {parsed : Parsed} (hparse : parse convention content stem source = .ok parsed) :
    ∃ declared lifted, parsed.types = declared ++ lifted ∧
      (∀ type ∈ declared, IsDeclared convention (Line.significant 1 (Text.lines content))
        parsed.format type) ∧
      ∀ declaration ∈ lifted, declaration.IsLifted := by
  unfold parse at hparse
  dsimp only at hparse
  split at hparse
  case h_1 => cases hparse
  case h_2 =>
    obtain rfl := Except.ok.inj hparse
    exact types_eq_declared_append_lifted convention _ stem (Text.lines content)

/-- A library with a type that has a property, and an enum. -/
def paintText : String :=
  "#%RAML 1.0 Library\ntypes:\n  Paint:\n    properties:\n      shade:\n" ++
    "  Shade:\n    enum:\n      - Dark\n"

theorem parse_isScoped_paintText :
    ∃ parsed, parse .pascal paintText "paint" none = .ok parsed ∧
      parsed.types.map (fun type => (type.name, type.properties.keys, type.values)) =
        [("Paint", ["shade"], []), ("Shade", [], ["Dark"])] ∧
      ∃ declared lifted, parsed.types = declared ++ lifted ∧
        (∀ type ∈ declared, IsDeclared .pascal (Line.significant 1 (Text.lines paintText))
          parsed.format type) ∧
        ∀ declaration ∈ lifted, declaration.IsLifted := by
  have htypes : (parse .pascal paintText "paint" none).map
      (fun parsed => parsed.types.map fun type => (type.name, type.properties.keys, type.values)) =
        .ok [("Paint", ["shade"], []), ("Shade", [], ["Dark"])] := rfl
  cases hparse : parse .pascal paintText "paint" none with
  | error e =>
    rw [hparse] at htypes
    cases htypes
  | ok parsed =>
    rw [hparse] at htypes
    exact ⟨parsed, rfl, Except.ok.inj htypes, parse_isScoped hparse⟩

/-- A library with a property under a facet that takes none. -/
def exampleText : String := "#%RAML 1.0 Library\ntypes:\n  Paint:\n    example:\n      shade:\n"

/-- There the property stands under no line `properties:` at all. -/
theorem parse_exampleText :
    (parse .pascal exampleText "paint" none).map
        (fun parsed => parsed.types.map fun type => (type.origin, type.properties.keys)) =
      .ok [(none, ["shade"])] ∧
    ∀ line ∈ Line.significant 1 (Text.lines exampleText), line.text ≠ "properties:" :=
  ⟨rfl, by decide⟩

end Source

end RamlSchema.Raml
