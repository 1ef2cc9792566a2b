import RamlSchema.Proofs.Raml.Sites

/-!
# Declared objects

The objects of a file can be told from the depth of its lines alone, without reading any property: a
block of a library is an object unless it has a facet `enum:`, and its properties are the headings
six steps in; a file of a single type is one unless it says `enum:` at the margin, and its
properties are the headings two steps in behind `properties:`. The types that the readers return are
these objects, with a property for every name and no others. The invariant is that a type which is
no enum yet is what the sites passed so far say.
-/

namespace RamlSchema.Raml

/-! ### Names of sites -/

theorem propertyName_of_not_endsWith {heading : String} (h : Text.endsWith heading "?" = false) :
    propertyName heading = (heading, false) := by
  rw [propertyName, Text.dropSuffix?_eq_none_iff.mpr h]

theorem propertyName_snd (heading : String) :
    (propertyName heading).2 = Text.endsWith heading "?" := by
  cases hends : Text.endsWith heading "?" with
  | false => rw [propertyName_of_not_endsWith hends]
  | true =>
    rw [propertyName]
    split
    case h_1 => rfl
    case h_2 hnone =>
      rw [Text.dropSuffix?_eq_none_iff.mp hnone] at hends
      cases hends

namespace Site

def isOptional (site : Site) : Bool := Text.endsWith site.heading "?"

def names (sites : List Site) : List String := (sites.map name).eraseDups

/-- The names that some site requires, in the order of the first such sites. -/
def requiredNames (sites : List Site) : List String :=
  names (sites.filter (!·.isOptional))

/-- The site on a line that stands as deep as properties do. -/
def ofLine? (depth : Nat) (parent : String) (line : Line) (following : List Line) : Option Site :=
  if line.indent = depth then
    (Line.heading? line.text).map fun heading => ⟨parent, heading, line, following⟩
  else none

theorem names_concat (sites : List Site) (site : Site) :
    names (sites ++ [site]) =
      if site.name ∈ names sites then names sites else names sites ++ [site.name] := by
  simp only [names, List.map_append, List.map_singleton, eraseDups_concat, List.mem_eraseDups]

theorem mem_names_iff {sites : List Site} {name : String} :
    name ∈ names sites ↔ ∃ site ∈ sites, site.name = name := by
  rw [names, List.mem_eraseDups, List.mem_map]

theorem mem_requiredNames_iff {sites : List Site} {name : String} :
    name ∈ requiredNames sites ↔ ∃ site ∈ sites, site.name = name ∧ site.isOptional = false := by
  rw [requiredNames, mem_names_iff]
  constructor
  · rintro ⟨site, hsite, hname⟩
    obtain ⟨hsite, hrequired⟩ := List.mem_filter.mp hsite
    exact ⟨site, hsite, hname, by simpa using hrequired⟩
  · rintro ⟨site, hsite, hname, hrequired⟩
    exact ⟨site, List.mem_filter.mpr ⟨hsite, by simpa using hrequired⟩, hname⟩

/-- A name that ends with a question mark stands in a heading that ends with two. -/
theorem endsWith_of_mem_requiredNames {sites : List Site} {name : String}
    (hname : name ∈ requiredNames sites) : Text.endsWith name "?" = false := by
  obtain ⟨site, -, rfl, hrequired⟩ := mem_requiredNames_iff.mp hname
  rw [Site.name, propertyName_of_not_endsWith hrequired]
  exact hrequired

end Site

/-! ### Types that are what their sites say -/

/-- A type called `name` with the properties and the required names that its sites declare. -/
structure SitedType.IsWhole (convention : Convention) (name : String) (sited : SitedType) : Prop
    extends sited.IsMade convention where
  name_eq : sited.type.name = name
  required_eq : sited.type.required = Site.requiredNames sited.sites

theorem required_addResolution (type : Declaration) (site : Site) (resolution : Resolution) :
    (type.addResolution site.heading resolution).required =
      if site.isOptional || type.required.contains site.name then type.required
      else type.required ++ [site.name] := by
  rw [Site.isOptional, ← propertyName_snd]
  rfl

namespace SitedType.IsWhole

variable {convention : Convention} {name : String} {type : Declaration} {sites : List Site}

theorem of_name (convention : Convention) (name : String) :
    IsWhole convention name ⟨{ name }, []⟩ :=
  ⟨⟨rfl, List.forall_mem_nil _, List.forall_mem_nil _, rfl⟩, rfl, rfl⟩

theorem setType (h : IsWhole convention name ⟨type, sites⟩) {type' : Declaration}
    (hname : type'.name = type.name) (horigin : type'.origin = type.origin)
    (hproperties : type'.properties = type.properties)
    (hrequired : type'.required = type.required) :
    IsWhole convention name ⟨type', sites⟩ :=
  ⟨h.toIsMade.setType hname horigin hproperties, hname.trans h.name_eq,
    hrequired.trans h.required_eq⟩

theorem addSite (h : IsWhole convention name ⟨type, sites⟩) {heading : String} {line : Line}
    (hheading : Line.heading? line.text = some heading) (following : List Line) :
    IsWhole convention name
      ⟨type.addResolution heading (resolveHeading convention type.name heading line following),
        sites ++ [⟨name, heading, line, following⟩]⟩ := by
  obtain rfl : type.name = name := h.name_eq
  have hmade := h.toIsMade.addSite hheading following
  refine ⟨hmade, rfl, ?_⟩
  generalize hsite : (⟨type.name, heading, line, following⟩ : Site) = site
  obtain rfl : site.heading = heading := by rw [← hsite]
  change (type.addResolution site.heading _).required = _
  rw [required_addResolution, show type.required = _ from h.required_eq, Site.requiredNames,
    Site.requiredNames, List.filter_append]
  cases hoptional : site.isOptional with
  | true => simp [hoptional]
  | false => simp [hoptional, Site.names_concat]

end SitedType.IsWhole

structure DeclaredObject where
  name : String
  sites : List Site

/-! ### Libraries -/

namespace Library

/-- Whether a facet of a block makes its type an enum. -/
def isEnumBlock (body : List Line) : Bool := (body.takeWhile (!closes ·)).any opensEnum

/-- The sites in a block, down to the line that closes it. -/
def sitesIn (parent : String) : List Line → List Site
  | [] => []
  | line :: following =>
    if closes line then []
    else (Site.ofLine? 6 parent line following).toList ++ sitesIn parent following

def objects (lines : List Line) : List DeclaredObject :=
  ((openings false lines).filter (!isEnumBlock ·.2)).map fun (name, body) =>
    ⟨name, sitesIn name body⟩

variable {convention : Convention} {name : String} {sites : List Site} {line : Line}
  {following : List Line} {block : Block}

theorem isEnumBlock_cons (line : Line) (following : List Line) :
    isEnumBlock (line :: following) =
      (!closes line && (opensEnum line || isEnumBlock following)) := by
  rw [isEnumBlock, isEnumBlock, List.takeWhile_cons]
  cases closes line <;> simp

theorem required_readFacet (line : Line) (type : Declaration) :
    (readFacet line type).required = type.required := by
  unfold readFacet
  split
  · rfl
  · split <;> rfl

theorem isEnum_readBlockLine (convention : Convention) (line : Line) (following : List Line)
    (block : Block) :
    (readBlockLine convention line following block).type.isEnum =
      (block.type.isEnum || opensEnum line) := by
  rw [readBlockLine, opensEnum]
  split
  case isTrue hindent => rw [isEnum_readFacet, hindent, BEq.rfl, Bool.true_and]
  case isFalse hindent =>
    have hother : (line.indent == 4) = false := by simpa using hindent
    rw [hother, Bool.false_and, Bool.or_false]
    split
    · rw [readBlockMember]
      split
      · rw [Block.addEntry, Declaration.addEntry_eq]
      · split <;> rfl
    · rfl

theorem isEnum_readBlock (convention : Convention) (block : Block) (lines : List Line) :
    (readBlock convention block lines).type.isEnum = (block.type.isEnum || isEnumBlock lines) := by
  induction lines generalizing block with
  | nil => exact (Bool.or_false _).symm
  | cons line following ih =>
    rw [readBlock, isEnumBlock_cons]
    split
    case isTrue hcloses => simp [hcloses]
    case isFalse hcloses => simp [hcloses, ih, isEnum_readBlockLine, Bool.or_assoc]

theorem isWhole_readBlockLine
    (h : SitedType.IsWhole convention name ⟨block.type, sites⟩)
    (hobject : block.type.isEnum = false) (line : Line) (following : List Line) :
    SitedType.IsWhole convention name ⟨(readBlockLine convention line following block).type,
      sites ++ (Site.ofLine? 6 name line following).toList⟩ := by
  rw [readBlockLine, Site.ofLine?]
  split
  case isTrue hindent =>
    obtain ⟨hname, horigin, hproperties, -⟩ := members_readFacet line block.type
    rw [if_neg (by omega), Option.toList_none, List.append_nil]
    exact h.setType hname horigin hproperties (required_readFacet line block.type)
  case isFalse =>
    split
    case isTrue =>
      rw [readBlockMember, if_neg (Bool.eq_false_iff.mp hobject)]
      cases hheading : Line.heading? line.text with
      | none => simpa using h
      | some heading => exact h.addSite hheading following
    case isFalse => simpa using h

/-- A block that is read as an object has been one all along. -/
theorem isWhole_readBlock {lines : List Line}
    (h : SitedType.IsWhole convention name ⟨block.type, sites⟩)
    (hobject : (readBlock convention block lines).type.isEnum = false) :
    SitedType.IsWhole convention name
      ⟨(readBlock convention block lines).type, sites ++ sitesIn name lines⟩ := by
  induction lines generalizing block sites with
  | nil =>
    rw [readBlock, sitesIn, List.append_nil]
    exact h
  | cons line following ih =>
    have hstart : block.type.isEnum = false := by
      rw [isEnum_readBlock, Bool.or_eq_false_iff] at hobject
      exact hobject.1
    rw [readBlock] at hobject ⊢
    rw [sitesIn]
    split
    case isTrue => simpa using h
    case isFalse hcloses =>
      rw [if_neg hcloses] at hobject
      rw [← List.append_assoc]
      exact ih (isWhole_readBlockLine h hstart line following) hobject

theorem isEnum_blockOf (convention : Convention) (opening : String × List Line) :
    (blockOf convention opening).type.isEnum = isEnumBlock opening.2 :=
  isEnum_readBlock convention { type := { name := opening.1 } } opening.2

theorem isWhole_blockOf (convention : Convention) {opening : String × List Line}
    (hobject : isEnumBlock opening.2 = false) :
    SitedType.IsWhole convention opening.1
      ⟨(blockOf convention opening).type, sitesIn opening.1 opening.2⟩ := by
  have hstart : SitedType.IsWhole convention opening.1
      ⟨({ type := { name := opening.1 } } : Block).type, []⟩ := .of_name convention opening.1
  exact isWhole_readBlock hstart ((isEnum_blockOf convention opening).trans hobject)

/-- The types of a library that are no enums are its objects. -/
theorem forall₂_objects (convention : Convention) (lines : List Line) :
    List.Forall₂ (fun object type => SitedType.IsWhole convention object.name ⟨type, object.sites⟩)
      (objects lines) ((types convention lines).1.filter (!·.isEnum)) := by
  have hlifted : ((blocks convention lines).flatMap (·.lifted)).filter (!·.isEnum) = [] := by
    rw [List.filter_eq_nil_iff]
    intro declaration hdeclaration
    obtain ⟨block, hblock, hlifted⟩ := List.mem_flatMap.mp hdeclaration
    simp [((Source.isDeclared_of_mem_blocks hblock).2 declaration hlifted).2.1]
  have hdeclared : ((blocks convention lines).map (·.type)).filter (!·.isEnum) =
      ((openings false lines).filter (!isEnumBlock ·.2)).map
        fun opening => (blockOf convention opening).type := by
    rw [blocks, List.map_map, List.filter_map]
    simp only [Function.comp_def, isEnum_blockOf]
  rw [types_eq_blocks, List.filter_append, hlifted, List.append_nil, hdeclared, objects,
    List.forall₂_map_left_iff, List.forall₂_map_right_iff, List.forall₂_same]
  intro opening hopening
  exact isWhole_blockOf convention (by simpa using (List.mem_filter.mp hopening).2)

end Library

/-! ### Files of a single type -/

namespace SingleType

/-- A line at the margin that makes the type an enum. -/
def opensEnum (line : Line) : Bool := line.indent == 0 && line.text == "enum:"

/-- The sites of a file, where `inside` says that a line `properties:` stands in front of it. -/
def sitesIn (parent : String) : (inside : Bool) → List Line → List Site
  | _, [] => []
  | inside, line :: following =>
    if line.indent = 0 then sitesIn parent (inside || line.text == "properties:") following
    else
      (if inside then Site.ofLine? 2 parent line following else none).toList ++
        sitesIn parent inside following

def objects (stem : String) (lines : List Line) : List DeclaredObject :=
  if lines.any opensEnum then []
  else [⟨Naming.typeName stem, sitesIn (Naming.typeName stem) false lines⟩]

variable {convention : Convention} {name : String} {sites : List Site} {line : Line}
  {following : List Line} {progress : Progress} {inside : Bool}

/-- What holds of the only type while no line has made it an enum. -/
structure Progress.IsObject (progress : Progress) (convention : Convention) (name : String)
    (inside : Bool) (sites : List Site) : Prop where
  isWhole : SitedType.IsWhole convention name ⟨progress.type, sites⟩
  isEnum_eq : progress.type.isEnum = false
  inside_eq : progress.inside = if inside then .properties else .none

theorem isEnum_readFacet (line : Line) (progress : Progress) :
    (readFacet line progress).type.isEnum = (progress.type.isEnum || line.text == "enum:") := by
  rw [readFacet]
  cases hdescription : Line.facet? "description:" line.text with
  | some description =>
    have henum : line.text ≠ "enum:" := by
      intro htext
      rw [facet?_description_of_eq (.inl htext)] at hdescription
      cases hdescription
    simp [henum]
  | none =>
    by_cases henum : line.text = "enum:"
    · simp [henum]
    · by_cases hproperties : line.text = "properties:" <;> simp [henum, hproperties]

theorem isEnum_readLine (convention : Convention) (line : Line) (following : List Line)
    (progress : Progress) :
    (readLine convention line following progress).type.isEnum =
      (progress.type.isEnum || opensEnum line) := by
  rw [readLine, opensEnum]
  split
  case isTrue hindent => rw [isEnum_readFacet, hindent, BEq.rfl, Bool.true_and]
  case isFalse hindent =>
    have hother : (line.indent == 0) = false := by simpa using hindent
    rw [hother, Bool.false_and, Bool.or_false]
    split
    · rw [readMember]
      split
      · rfl
      · rw [Declaration.addEntry_eq]
      · split <;> rfl
    · rfl

theorem isEnum_read (convention : Convention) (progress : Progress) (lines : List Line) :
    (read convention progress lines).type.isEnum =
      (progress.type.isEnum || lines.any opensEnum) := by
  induction lines generalizing progress with
  | nil => exact (Bool.or_false _).symm
  | cons line following ih => rw [read, ih, isEnum_readLine, List.any_cons, Bool.or_assoc]

theorem isObject_readFacet (h : progress.IsObject convention name inside sites)
    (henum : line.text ≠ "enum:") :
    (readFacet line progress).IsObject convention name (inside || line.text == "properties:")
      sites := by
  rw [readFacet]
  cases hdescription : Line.facet? "description:" line.text with
  | some description =>
    have hproperties : line.text ≠ "properties:" := by
      intro htext
      rw [facet?_description_of_eq (.inr htext)] at hdescription
      cases hdescription
    exact ⟨h.isWhole.setType rfl rfl rfl rfl, h.isEnum_eq, by simp [h.inside_eq, hproperties]⟩
  | none =>
    by_cases hproperties : line.text = "properties:"
    · exact ⟨by simpa [hproperties] using h.isWhole, by simpa [hproperties] using h.isEnum_eq,
        by simp [hproperties]⟩
    · have hother : (line.text == "properties:") = false := by simpa using hproperties
      rw [hother, Bool.or_false]
      simpa [henum, hproperties] using h

theorem isObject_readMember (h : progress.IsObject convention name inside sites) (line : Line)
    (following : List Line) (hindent : line.indent = 2) :
    (readMember convention line following progress).IsObject convention name inside
      (sites ++ (if inside then Site.ofLine? 2 name line following else none).toList) := by
  have hinside := h.inside_eq
  rw [readMember]
  cases inside with
  | false =>
    rw [hinside]
    simpa using h
  | true =>
    rw [hinside, if_pos rfl, if_pos rfl, Site.ofLine?, if_pos hindent]
    cases hheading : Line.heading? line.text with
    | none => simpa using h
    | some heading =>
      exact ⟨h.isWhole.addSite hheading following, h.isEnum_eq, rfl⟩

theorem isObject_read {lines : List Line} (h : progress.IsObject convention name inside sites)
    (hobject : lines.any opensEnum = false) :
    ∃ inside', (read convention progress lines).IsObject convention name inside'
      (sites ++ sitesIn name inside lines) := by
  induction lines generalizing progress inside sites with
  | nil =>
    rw [read, sitesIn, List.append_nil]
    exact ⟨inside, h⟩
  | cons line following ih =>
    rw [List.any_cons, Bool.or_eq_false_iff] at hobject
    obtain ⟨hline, hfollowing⟩ := hobject
    rw [read, readLine, sitesIn]
    by_cases hmargin : line.indent = 0
    · have henum : line.text ≠ "enum:" := by simpa [opensEnum, hmargin] using hline
      rw [if_pos hmargin, if_pos hmargin]
      exact ih (isObject_readFacet h henum) hfollowing
    · rw [if_neg hmargin, if_neg hmargin, ← List.append_assoc]
      by_cases hindent : line.indent = 2
      · rw [if_pos hindent]
        exact ih (isObject_readMember h line following hindent) hfollowing
      · have hother : Site.ofLine? 2 name line following = none := if_neg hindent
        rw [if_neg hindent, hother, ite_self, Option.toList_none, List.append_nil]
        exact ih h hfollowing

/-- The type of a file, unless it is an enum, is its object. -/
theorem forall₂_objects (convention : Convention) (stem : String) (lines : List Line) :
    List.Forall₂ (fun object type => SitedType.IsWhole convention object.name ⟨type, object.sites⟩)
      (objects stem lines) ((types convention stem lines).1.filter (!·.isEnum)) := by
  have hstart : Progress.IsObject { type := { name := Naming.typeName stem } } convention
      (Naming.typeName stem) false [] := ⟨.of_name convention (Naming.typeName stem), rfl, rfl⟩
  generalize hprogress :
    read convention { type := { name := Naming.typeName stem } } lines = progress
  have hlifted : progress.lifted.filter (!·.isEnum) = [] := by
    rw [List.filter_eq_nil_iff, ← hprogress]
    intro declaration hdeclaration
    have henum := ((grown_read convention _ lines).isLifted declaration hdeclaration).2.1
    simp [henum]
  have hisEnum : progress.type.isEnum = lines.any opensEnum := by
    rw [← hprogress]
    exact isEnum_read convention _ lines
  rw [types, hprogress, objects, List.filter_cons, hlifted, hisEnum]
  cases hany : lines.any opensEnum with
  | true => exact .nil
  | false =>
    obtain ⟨inside, hobject⟩ := isObject_read hstart hany
    rw [hprogress, List.nil_append] at hobject
    exact .cons hobject.isWhole .nil

end SingleType

namespace Source

/-- The objects that a file of the given stem declares. -/
def objects (content stem : String) : List DeclaredObject :=
  let lines := Line.significant 1 (Text.lines content)
  match SourceFormat.ofContent content with
  | .library => Library.objects lines
  | .dataType => SingleType.objects stem lines

theorem forall₂_objects {convention : Convention} {content stem : String} {source : Option String}
    {parsed : Parsed} (hparse : parse convention content stem source = .ok parsed) :
    List.Forall₂ (fun object type => SitedType.IsWhole convention object.name ⟨type, object.sites⟩)
      (objects content stem) (parsed.types.filter (!·.isEnum)) := by
  rw [(parse_eq_ok hparse).1]
  unfold objects typesOf
  cases SourceFormat.ofContent content with
  | library => exact Library.forall₂_objects convention _
  | dataType => exact SingleType.forall₂_objects convention stem _

end Source

end RamlSchema.Raml
