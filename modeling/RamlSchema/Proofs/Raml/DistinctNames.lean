import RamlSchema.Proofs.Naming
import RamlSchema.Proofs.Raml.LiftedEnums
import RamlSchema.Proofs.Raml.Outline
import RamlSchema.Proofs.Success

/-!
# Names that a file gives twice

A lifted enum is called by the name of the type and the name of the property, both in capital form
and with nothing in between. Such a name does not say where the first part ends or how the parts
were written in the file, and nothing keeps a declared type from having it. So different properties
may lift enums of one name, and then both refer to one enum.
-/

namespace RamlSchema.Raml

open Naming (typeName)

/-! ### Joined names -/

theorem append_eq_append_iff {s t u v : String} :
    s ++ t = u ++ v ↔
      (∃ shared, u = s ++ shared ∧ t = shared ++ v) ∨
        ∃ shared, s = u ++ shared ∧ v = shared ++ t := by
  constructor
  · intro heq
    have hchars : s.toList ++ t.toList = u.toList ++ v.toList := by
      rw [← String.toList_append, heq, String.toList_append]
    rcases List.append_eq_append_iff.mp hchars with ⟨shared, hfirst, hsecond⟩ |
      ⟨shared, hfirst, hsecond⟩
    · refine .inl ⟨.ofList shared, String.toList_inj.mp ?_, String.toList_inj.mp ?_⟩
      · rw [String.toList_append, String.toList_ofList, hfirst]
      · rw [String.toList_append, String.toList_ofList, hsecond]
    · refine .inr ⟨.ofList shared, String.toList_inj.mp ?_, String.toList_inj.mp ?_⟩
      · rw [String.toList_append, String.toList_ofList, hfirst]
      · rw [String.toList_append, String.toList_ofList, hsecond]
  · rintro (⟨shared, rfl, rfl⟩ | ⟨shared, rfl, rfl⟩) <;> rw [String.append_assoc]

namespace Origin

/-- The name of the enum that is lifted out of the property. -/
def joined (origin : Origin) : String := liftedName origin.parent origin.property

/-- In capital form, the name of the second type goes on behind that of the first with what the
name of the first property begins with. -/
def Overlaps (first second : Origin) : Prop :=
  ∃ shared, typeName second.parent = typeName first.parent ++ shared ∧
    typeName first.property = shared ++ typeName second.property

/-- Names are joined to one and the same only where they overlap. -/
theorem joined_eq_iff {first second : Origin} :
    first.joined = second.joined ↔ first.Overlaps second ∨ second.Overlaps first := by
  rw [joined, joined, liftedName, liftedName, append_eq_append_iff, Overlaps, Overlaps]

end Origin

/-- No enum is called like one of the types, and no two are called alike. -/
structure NamesApart (types : List String) (origins : List Origin) : Prop where
  fromTypes : ∀ origin ∈ origins, origin.joined ∉ types
  fromEach : ∀ first ∈ origins, ∀ second ∈ origins, first ≠ second → ¬ first.Overlaps second

theorem nodup_append_joined_iff {types : List String} {origins : List Origin}
    (htypes : types.Nodup) (horigins : origins.Nodup) :
    (types ++ origins.map Origin.joined).Nodup ↔ NamesApart types origins := by
  rw [List.nodup_append, List.nodup_map_iff_inj_on horigins]
  constructor
  · rintro ⟨-, hinj, hdisjoint⟩
    refine ⟨fun origin horigin hmem => ?_, fun first hfirst second hsecond hne hoverlaps => ?_⟩
    · exact hdisjoint _ hmem _ (List.mem_map_of_mem horigin) rfl
    · exact hne (hinj first hfirst second hsecond (Origin.joined_eq_iff.mpr (.inl hoverlaps)))
  · rintro ⟨hfromTypes, hfromEach⟩
    refine ⟨htypes, fun first hfirst second hsecond hjoined => ?_, fun type htype name hname => ?_⟩
    · by_contra hne
      rcases Origin.joined_eq_iff.mp hjoined with hoverlaps | hoverlaps
      · exact hfromEach first hfirst second hsecond hne hoverlaps
      · exact hfromEach second hsecond first hfirst (Ne.symm hne) hoverlaps
    · obtain ⟨origin, horigin, rfl⟩ := List.mem_map.mp hname
      exact fun heq => hfromTypes origin horigin (heq ▸ htype)

/-! ### Sites and their enums -/

variable {convention : Convention} {content : String} {parsed : Parsed}
  {declared : List SitedType} {lifted : List Declaration} {enum : Declaration}

def Site.origin (site : Site) : Origin := ⟨site.parent, site.name⟩

theorem Site.origin_of_liftedEnum {site : Site} (hlifted : site.liftedEnum convention = some enum) :
    enum.origin = some site.origin := by
  obtain ⟨values, -, rfl⟩ := Site.exists_of_liftedEnum hlifted
  rfl

/-- The sites of a file lie apart if no type is declared twice and no property within a type. -/
theorem nodup_origins_sites (hmade : ∀ sited ∈ declared, sited.IsMade convention)
    (htypes : (declared.map (·.type.name)).Nodup)
    (hsites : ∀ sited ∈ declared, (sited.sites.map Site.name).Nodup) :
    ((declared.flatMap SitedType.sites).map Site.origin).Nodup := by
  rw [List.map_flatMap, List.nodup_flatMap]
  constructor
  · intro sited hsited
    refine List.Nodup.of_map Origin.property ?_
    rw [List.map_map]
    exact hsites sited hsited
  · refine (List.pairwise_map.mp htypes).imp_of_mem ?_
    intro first second hfirst hsecond hne origin horigin hother
    obtain ⟨site, hsite, rfl⟩ := List.mem_map.mp horigin
    obtain ⟨twin, htwin, heq⟩ := List.mem_map.mp hother
    have hparent : twin.parent = site.parent := congrArg Origin.parent heq
    rw [(hmade first hfirst).parent_eq site hsite, (hmade second hsecond).parent_eq twin htwin]
      at hparent
    exact hne hparent.symm

/-- Type names in capital form of which none begins another, and within each type properties whose
names in capital form differ and are not empty. -/
structure WellNamed (declared : List SitedType) : Prop where
  typeName_eq : ∀ sited ∈ declared, typeName sited.type.name = sited.type.name
  eq_of_isPrefix : ∀ sited ∈ declared, ∀ other ∈ declared,
    sited.type.name.toList <+: other.type.name.toList → sited.type.name = other.type.name
  nodup : ∀ sited ∈ declared, (sited.sites.map (typeName ·.name)).Nodup
  name_ne_empty : ∀ sited ∈ declared, ∀ site ∈ sited.sites, site.name ≠ ""

namespace Parsed.LiftsIntact

theorem exists_site (h : parsed.LiftsIntact convention content declared lifted) {origin : Origin}
    (horigin : origin ∈ lifted.filterMap (·.origin)) :
    ∃ sited ∈ declared, ∃ site ∈ sited.sites, origin = ⟨sited.type.name, site.name⟩ := by
  obtain ⟨enum, henum, horigin⟩ := List.mem_filterMap.mp horigin
  rw [h.sited.lifted_eq] at henum
  obtain ⟨site, hsite, hlifted⟩ := List.mem_filterMap.mp henum
  obtain ⟨sited, hsited, hsite⟩ := List.mem_flatMap.mp hsite
  refine ⟨sited, hsited, site, hsite, ?_⟩
  rw [Site.origin_of_liftedEnum hlifted, Option.some_inj] at horigin
  rw [← horigin, Site.origin, (h.sited.isMade sited hsited).parent_eq site hsite]

theorem nodup_origins (h : parsed.LiftsIntact convention content declared lifted)
    (htypes : (declared.map (·.type.name)).Nodup)
    (hsites : ∀ sited ∈ declared, (sited.sites.map Site.name).Nodup) :
    (lifted.filterMap (·.origin)).Nodup := by
  rw [h.sited.lifted_eq, List.filterMap_filterMap]
  refine (nodup_origins_sites h.sited.isMade htypes hsites).sublist (filterMap_sublist_map ?_ _)
  intro site origin horigin
  obtain ⟨enum, hlifted, henum⟩ := Option.bind_eq_some_iff.mp horigin
  rw [Site.origin_of_liftedEnum hlifted] at henum
  exact (Option.some_inj.mp henum).symm

theorem names_eq (h : parsed.LiftsIntact convention content declared lifted) :
    parsed.types.map (·.name) =
      declared.map (·.type.name) ++ (lifted.filterMap (·.origin)).map Origin.joined := by
  have hnames : lifted.filterMap (fun enum => enum.origin.map Origin.joined) =
      lifted.filterMap (some ∘ Declaration.name) := by
    refine List.filterMap_congr fun enum henum => ?_
    obtain ⟨parent, property, horigin, hname, -⟩ := (h.isLifted enum henum).origin
    rw [horigin, Function.comp_apply, hname]
    rfl
  rw [h.types_eq, List.map_append, List.map_map, List.map_filterMap, hnames, List.filterMap_eq_map]
  rfl

theorem namesApart (h : parsed.LiftsIntact convention content declared lifted)
    (htypes : (declared.map (·.type.name)).Nodup) (hnamed : WellNamed declared) :
    NamesApart (declared.map (·.type.name)) (lifted.filterMap (·.origin)) where
  fromTypes := by
    intro origin horigin hmem
    obtain ⟨sited, hsited, site, hsite, rfl⟩ := h.exists_site horigin
    obtain ⟨other, hother, hjoined⟩ := List.mem_map.mp hmem
    rw [Origin.joined, liftedName, hnamed.typeName_eq sited hsited] at hjoined
    have hprefix : sited.type.name.toList <+: other.type.name.toList :=
      ⟨(typeName site.name).toList, by rw [hjoined, String.toList_append]⟩
    rw [← hnamed.eq_of_isPrefix sited hsited other hother hprefix, eq_comm,
      String.append_eq_left_iff] at hjoined
    exact hnamed.name_ne_empty sited hsited site hsite (Naming.typeName_eq_empty_iff.mp hjoined)
  fromEach := by
    intro first hfirst second hsecond hne hoverlaps
    obtain ⟨sited, hsited, site, hsite, rfl⟩ := h.exists_site hfirst
    obtain ⟨other, hother, twin, htwin, rfl⟩ := h.exists_site hsecond
    obtain ⟨shared, hparent, hproperty⟩ := hoverlaps
    rw [hnamed.typeName_eq sited hsited, hnamed.typeName_eq other hother] at hparent
    have hprefix : sited.type.name.toList <+: other.type.name.toList :=
      ⟨shared.toList, by rw [hparent, String.toList_append]⟩
    have hname := hnamed.eq_of_isPrefix sited hsited other hother hprefix
    -- Types of one name are one type, and there the names of the properties decide.
    obtain rfl := List.inj_on_of_nodup_map htypes hsited hother hname
    rw [eq_comm, String.append_eq_left_iff] at hparent
    rw [hparent, String.empty_append] at hproperty
    obtain rfl := List.inj_on_of_nodup_map (hnamed.nodup sited hsited) hsite htwin hproperty
    exact hne rfl

end Parsed.LiftsIntact

/-- **When the types of a file have different names.** Let no type of a file be declared twice, and
no property within a type. Then the enums are lifted out of different properties, and all names
differ exactly if no enum is called like a declared type and no two of the properties overlap. They
do if the type names are in capital form and none begins another, and the properties of each type
have names that differ in capital form and are not empty. -/
theorem Source.names_nodup_iff {content stem : String} {source : Option String} {parsed : Parsed}
    (hparse : Source.parse convention content stem source = .ok parsed) :
    (∃ declared lifted, parsed.LiftsIntact convention content declared lifted) ∧
    ∀ declared lifted, parsed.LiftsIntact convention content declared lifted →
      (declared.map (·.type.name)).Nodup →
      (∀ sited ∈ declared, (sited.sites.map Site.name).Nodup) →
        (lifted.filterMap (·.origin)).Nodup ∧
        ((parsed.types.map (·.name)).Nodup ↔
          NamesApart (declared.map (·.type.name)) (lifted.filterMap (·.origin))) ∧
        (WellNamed declared → (parsed.types.map (·.name)).Nodup) := by
  refine ⟨Source.exists_liftsIntact hparse, fun declared lifted h htypes hsites => ?_⟩
  have horigins := h.nodup_origins htypes hsites
  have hiff : (parsed.types.map (·.name)).Nodup ↔
      NamesApart (declared.map (·.type.name)) (lifted.filterMap (·.origin)) := by
    rw [h.names_eq]
    exact nodup_append_joined_iff htypes horigins
  exact ⟨horigins, hiff, fun hnamed => hiff.mpr (h.namesApart htypes hnamed)⟩

/-! ### Libraries of two enums -/

/-- A declared type with one property, on the line `number`. -/
def SitedType.single (origin : Origin) (number : Int) (following : List Line) : SitedType :=
  let line : Line := ⟨number, 6, origin.property ++ ":"⟩
  ⟨({ name := origin.parent } : Declaration).addResolution origin.property
      (resolveHeading .pascal origin.parent origin.property line following),
    [⟨origin.parent, origin.property, line, following⟩]⟩

theorem SitedType.isMade_single {origin : Origin}
    (hheading : Line.heading? (origin.property ++ ":") = some origin.property) (number : Int)
    (following : List Line) : (single origin number following).IsMade .pascal := by
  have hmade : IsMade .pascal ⟨{ name := origin.parent }, []⟩ :=
    ⟨rfl, List.forall_mem_nil _, List.forall_mem_nil _, rfl⟩
  have hline : Line.heading? (⟨number, 6, origin.property ++ ":"⟩ : Line).text =
    some origin.property := hheading
  exact hmade.addSite hline following

def enumRows (origin : Origin) (value : String) : List Row :=
  [⟨2, origin.parent ++ ":"⟩, ⟨4, "properties:"⟩, ⟨6, origin.property ++ ":"⟩, ⟨8, "enum:"⟩,
    ⟨10, "- " ++ value⟩]

def pairRows (first second : Origin) : List Row :=
  ⟨0, "types:"⟩ :: (enumRows first "A" ++ enumRows second "B")

/-- A library of two types, each of which has a property with an enum of one value. -/
def pairText (first second : Origin) : String := fileText .library (pairRows first second)

def pairDeclared (first second : Origin) : List SitedType :=
  let lines := Row.place 2 (pairRows first second)
  [.single first 5 (lines.drop 4), .single second 10 (lines.drop 9)]

def pairSites (first second : Origin) : List Site :=
  (pairDeclared first second).flatMap SitedType.sites

def pairLifted (first second : Origin) : List Declaration :=
  (pairSites first second).filterMap (Site.liftedEnum .pascal)

/-- The library is read as it is written. -/
def PairRead (first second : Origin) : Prop :=
  let lines := Row.place 2 (pairRows first second)
  let read := Library.types .pascal lines
  (∀ row ∈ pairRows first second, IsPlain row.text) ∧
  (∀ origin ∈ [first, second],
    Line.heading? (origin.property ++ ":") = some origin.property) ∧
  read.1 = (pairDeclared first second).map SitedType.type ++ pairLifted first second ∧
  read.2.lifts = (pairSites first second).filterMap (Site.lift .pascal) ∧
  ((pairSites first second).map (·.line)).Sublist lines ∧
  ∀ site ∈ pairSites first second, site.line :: site.following <:+ lines

instance (first second : Origin) : Decidable (PairRead first second) :=
  inferInstanceAs (Decidable (_ ∧ _ ∧ _ ∧ _ ∧ _ ∧ _))

theorem PairRead.liftsIntact {first second : Origin} (h : PairRead first second) :
    ∃ parsed, Source.parse .pascal (pairText first second) "pair" none = .ok parsed ∧
      parsed.LiftsIntact .pascal (pairText first second) (pairDeclared first second)
        (pairLifted first second) := by
  obtain ⟨hplain, hheadings, htypes, hlifts, hinOrder, hplaces⟩ := h
  obtain ⟨parsed, hparse, hread⟩ := exists_parse_libraryRows hplain .pascal "pair" none
  rw [← hread] at htypes hlifts
  have hsited : Sited .pascal (Row.place 2 (pairRows first second))
      (Row.place 2 (pairRows first second)) (pairDeclared first second) (pairLifted first second)
      parsed.findings.lifts := by
    refine ⟨?_, rfl, hlifts, hinOrder, ?_⟩
    · intro sited hsited
      rcases List.mem_pair.mp hsited with rfl | rfl
      · exact SitedType.isMade_single (hheadings first (by simp)) _ _
      · exact SitedType.isMade_single (hheadings second (by simp)) _ _
    · intro site hsite
      obtain ⟨front, hfront⟩ := hplaces site hsite
      exact ⟨front, hfront.symm⟩
  rw [← significant_fileText hplain .library] at hsited
  exact ⟨parsed, hparse, hsited.liftsIntact htypes⟩

theorem Source.names_nodup_iff_order :
    ∃ parsed, Source.parse .pascal (pairText ⟨"Order", "status"⟩ ⟨"Line", "status"⟩) "pair" none =
        .ok parsed ∧
      parsed.types.map (·.name) = ["Order", "Line", "OrderStatus", "LineStatus"] ∧
      (parsed.types.map (·.name)).Nodup := by
  have hread : PairRead ⟨"Order", "status"⟩ ⟨"Line", "status"⟩ := by decide +kernel
  obtain ⟨parsed, hparse, hlifts⟩ := hread.liftsIntact
  refine ⟨parsed, hparse, by rw [hlifts.names_eq]; decide +kernel, ?_⟩
  obtain ⟨-, hnames⟩ := Source.names_nodup_iff hparse
  obtain ⟨-, -, hdistinct⟩ := hnames _ _ hlifts (by decide +kernel) (by decide +kernel)
  exact hdistinct ⟨by decide +kernel, by decide +kernel, by decide +kernel, by decide +kernel⟩

/-- The properties `Foo.barBaz` and `FooBar.baz` overlap: both refer to an enum `FooBarBaz`, and two
enums of that name follow the types. And an enum in `Order.status` is called like a type
`OrderStatus`. -/
theorem Source.names_of_overlapping_properties :
    let first : Origin := ⟨"Foo", "barBaz"⟩
    let second : Origin := ⟨"FooBar", "baz"⟩
    let order : Origin := ⟨"Order", "status"⟩
    let status : Origin := ⟨"OrderStatus", "text"⟩
    pairText first second =
      "#%RAML 1.0 Library\ntypes:\n  Foo:\n    properties:\n      barBaz:\n        enum:\n" ++
        "          - A\n  FooBar:\n    properties:\n      baz:\n        enum:\n          - B\n" ∧
    (pairDeclared first second).map (fun sited => (sited.type.name, sited.sites.map Site.name,
        sited.type.properties.map fun (_, property) => property.reference)) =
      [("Foo", ["barBaz"], [some "./common/enums/FooBarBazEnum.schema.json"]),
        ("FooBar", ["baz"], [some "./common/enums/FooBarBazEnum.schema.json"])] ∧
    (pairLifted first second).map (·.values) = [["A"], ["B"]] ∧
    (∃ parsed, Source.parse .pascal (pairText first second) "pair" none = .ok parsed ∧
      parsed.LiftsIntact .pascal (pairText first second) (pairDeclared first second)
        (pairLifted first second) ∧
      parsed.types.map (·.name) = ["Foo", "FooBar", "FooBarBaz", "FooBarBaz"] ∧
      ¬ (parsed.types.map (·.name)).Nodup) ∧
    ∃ parsed, Source.parse .pascal (pairText order status) "pair" none = .ok parsed ∧
      parsed.types.map (·.name) = ["Order", "OrderStatus", "OrderStatus", "OrderStatusText"] := by
  intro first second order status
  refine ⟨by decide +kernel, by decide +kernel, by decide +kernel, ?_, ?_⟩
  · have hread : PairRead first second := by decide +kernel
    obtain ⟨parsed, hparse, hlifts⟩ := hread.liftsIntact
    have hnames : parsed.types.map (·.name) = ["Foo", "FooBar", "FooBarBaz", "FooBarBaz"] := by
      rw [hlifts.names_eq]
      decide +kernel
    refine ⟨parsed, hparse, hlifts, hnames, ?_⟩
    rw [hnames]
    decide
  · have hread : PairRead order status := by decide +kernel
    obtain ⟨parsed, hparse, hlifts⟩ := hread.liftsIntact
    refine ⟨parsed, hparse, ?_⟩
    rw [hlifts.names_eq]
    decide +kernel

end RamlSchema.Raml
